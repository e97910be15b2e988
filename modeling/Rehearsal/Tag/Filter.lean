import Rehearsal.Tag.Expression.Reader

/-!
# Tag filters

A tag filter is a list of tag expressions that must all hold.
-/

namespace Rehearsal

structure TagFilter where
  expressions : List TagExpression
  deriving DecidableEq, Repr, Inhabited

namespace TagFilter

def all : TagFilter := ⟨[]⟩

/-- Reads a list of expressions; the first faulty one is reported. -/
def parse (texts : List String) : Except TagExpression.Error TagFilter :=
  (texts.mapM TagExpression.parse).map TagFilter.mk

def push (f : TagFilter) (e : TagExpression) : TagFilter := ⟨f.expressions ++ [e]⟩

def isTrivial (f : TagFilter) : Bool := f.expressions.all (· == .always)

def accepts (f : TagFilter) (tags : List String) : Bool := f.expressions.all (·.holds tags)

end TagFilter

end Rehearsal
