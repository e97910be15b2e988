/-!
# Written regular expressions

`Regex.Form` is a regular expression as it is written: flags and groups stand where
they were written, and sets of characters keep their brackets. What a form means
depends on the flags around it and is settled in `Rehearsal.Regex.Meaning`.
-/

namespace Rehearsal

namespace Regex

inductive Named where
  | digit
  | space
  | word
  deriving DecidableEq, Repr, Inhabited

inductive Assertion where
  | caret
  | dollar
  | textStart
  | textEnd
  | wordBoundary
  | notWordBoundary
  | wordStart
  | wordEnd
  | wordStartHalf
  | wordEndHalf
  deriving DecidableEq, Repr, Inhabited

inductive Flag where
  | caseless
  | multiline
  | dotAll
  | swapGreed
  | unicode
  | crlf
  | verbose
  deriving DecidableEq, Repr, Inhabited

/-- Flags switched on (`true`) and off, in the order written. -/
abbrev FlagChanges := List (Flag × Bool)

/-- A single character as written; `isByte` is set for two hexadecimal digits. -/
structure Literal where
  char : Char
  isByte : Bool
  deriving DecidableEq, Repr, Inhabited

inductive SetOp where
  | inter
  | diff
  | symmDiff
  deriving DecidableEq, Repr, Inhabited

inductive SetForm where
  | literal (l : Literal)
  | range (lo hi : Literal)
  | named (n : Named) (negated : Bool)
  | property (name : String) (negated : Bool)
  | ascii (name : String) (negated : Bool)
  | nothing
  | union (a b : SetForm)
  | op (o : SetOp) (a b : SetForm)
  | bracket (negated : Bool) (inner : SetForm)
  deriving DecidableEq, Repr, Inhabited

inductive GroupKind where
  | numbered (index : Nat)
  | plain (changes : FlagChanges)
  deriving DecidableEq, Repr, Inhabited

inductive Form where
  | empty
  | literal (l : Literal)
  | dot
  | assertion (a : Assertion)
  | named (n : Named) (negated : Bool)
  | property (name : String) (negated : Bool)
  | bracket (negated : Bool) (inner : SetForm)
  | flags (changes : FlagChanges)
  | rounds (least : Nat) (most : Option Nat) (greedy : Bool) (inner : Form)
  | group (kind : GroupKind) (inner : Form)
  | concat (a b : Form)
  | alternation (a b : Form)
  deriving DecidableEq, Repr, Inhabited

namespace SetForm

/-- The union of the members, the last one first. -/
def ofReversed : List SetForm → SetForm
  | [] => nothing
  | [a] => a
  | a :: rest => rest.foldl (fun acc b => union b acc) a

/-- How deep brackets and operations are nested; the members of one union lie on one
level. `inUnion` tells whether a union around is counted already. -/
def depth (inUnion : Bool) : SetForm → Nat
  | union a b => (if inUnion then 0 else 1) + max (depth true a) (depth true b)
  | op _ a b => 1 + max (depth false a) (depth false b)
  | bracket _ inner => 1 + depth false inner
  | _ => 0

end SetForm

namespace Form

def isRepeatable : Form → Bool
  | empty => false
  | flags _ => false
  | _ => true

/-- The items one after the other, the last one first. -/
def ofReversed : List Form → Form
  | [] => empty
  | a :: rest => rest.foldl (fun acc b => concat b acc) a

/-- The alternatives, the last one first. -/
def ofBranches : List Form → Form
  | [] => empty
  | a :: rest => rest.foldl (fun acc b => alternation b acc) a

/-- The two ways in which forms are strung together. -/
inductive Chain where
  | concat
  | alternation
  deriving DecidableEq

/-- How deep forms are nested; the items of one chain lie on one level. `within` is the
chain that is counted already. -/
def depth (within : Option Chain) : Form → Nat
  | concat a b =>
    (if within = some .concat then 0 else 1) +
      max (depth (some .concat) a) (depth (some .concat) b)
  | alternation a b =>
    (if within = some .alternation then 0 else 1) +
      max (depth (some .alternation) a) (depth (some .alternation) b)
  | rounds _ _ _ inner => 1 + depth none inner
  | group _ inner => 1 + depth none inner
  | bracket _ inner => 1 + inner.depth false
  | _ => 0

@[simp] theorem ofReversed_nil : ofReversed [] = empty := rfl

@[simp] theorem ofReversed_singleton (a : Form) : ofReversed [a] = a := rfl

end Form

end Regex

end Rehearsal
