import Rehearsal.Tag

/-!
# Tag expressions

A tag expression is a formula over tag names. `TagExpression.holds` is its truth
value on a list of written tags, and `TagExpression.render` writes it out with
every `and` and `or` in parentheses.
-/

namespace Rehearsal

/-- A formula over tag names. `always` stands for the empty expression. -/
inductive TagExpression where
  | always
  | tag (name : String)
  | not (inner : TagExpression)
  | and (left right : TagExpression)
  | or (left right : TagExpression)
  deriving DecidableEq, Repr, Inhabited

namespace TagExpression

/-- Is `name` one of the written tags? Leading `@` of a written tag does not count. -/
def isTagged (tags : List String) (name : String) : Bool :=
  tags.any fun t => dropSigils t.toList == name.toList

def holds (tags : List String) : TagExpression → Bool
  | always => true
  | tag name => isTagged tags name
  | not inner => !holds tags inner
  | and left right => holds tags left && holds tags right
  | or left right => holds tags left || holds tags right

def render : TagExpression → String
  | always => ""
  | tag name => "@" ++ name
  | not inner => "not " ++ render inner
  | and left right => "(" ++ render left ++ " and " ++ render right ++ ")"
  | or left right => "(" ++ render left ++ " or " ++ render right ++ ")"

def negate : Nat → TagExpression → TagExpression
  | 0, e => e
  | n + 1, e => not (negate n e)

/-- Joins a left side that may be missing. -/
def joinLeft (op : TagExpression → TagExpression → TagExpression) :
    Option TagExpression → TagExpression → TagExpression
  | none, e => e
  | some left, e => op left e

/-- Only the names count: neither order nor repetition of the tags is seen. -/
theorem isTagged_iff (tags : List String) (name : String) :
    isTagged tags name = true ↔ ∃ t ∈ tags, dropSigils t.toList = name.toList := by
  simp [isTagged]

end TagExpression

end Rehearsal
