import Rehearsal.Document.Table

/-!
# Steps

A step has a keyword, whose class is that of `Given`, `When`, `Then` or of a conjunction,
and a text, which may be followed by a table or a longer text. The type of a step is the
class that counts when an implementation is looked for: a conjunction takes over the type
of the step before it and has none where no step is before it.
-/

namespace Rehearsal

inductive KeywordClass where
  | context
  | action
  | outcome
  | conjunction
  deriving DecidableEq, Repr, Inhabited

namespace KeywordClass

def all : List KeywordClass := [context, action, outcome, conjunction]

def keyword : KeywordClass → String
  | context => "Given"
  | action => "When"
  | outcome => "Then"
  | conjunction => "And"

def name : KeywordClass → String
  | context => "context"
  | action => "action"
  | outcome => "outcome"
  | conjunction => "conjunction"

/-- The type of a step whose keyword is of this class and that stands first. -/
def ownType : KeywordClass → Option KeywordClass
  | conjunction => none
  | c => some c

end KeywordClass

structure DocString where
  content : String
  contentType : Option String
  line : Nat
  deriving DecidableEq, Repr, Inhabited

inductive StepArgument where
  | table (t : Table)
  | docString (d : DocString)
  deriving DecidableEq, Repr, Inhabited

structure Step where
  keyword : String
  keywordClass : KeywordClass
  stepType : Option KeywordClass
  text : String
  argument : Option StepArgument
  line : Nat
  deriving DecidableEq, Repr, Inhabited

namespace Step

def ofClass (c : KeywordClass) (text : String) : Step := ⟨c.keyword, c, c.ownType, text, none, 0⟩

def but (text : String) : Step := { ofClass .conjunction text with keyword := "But" }

def table? (s : Step) : Option Table :=
  match s.argument with
  | some (.table t) => some t
  | _ => none

def docString? (s : Step) : Option DocString :=
  match s.argument with
  | some (.docString d) => some d
  | _ => none

/-- Gives a conjunction the type of the step before it. -/
def resolve (s : Step) (before : Option Step) : Step :=
  match s.keywordClass with
  | .conjunction => { s with stepType := before.bind (·.stepType) }
  | _ => s

def push (steps : List Step) (s : Step) : List Step := steps ++ [s.resolve steps.getLast?]

/-- The steps that arise when the given ones are appended one after the other. -/
def build (steps : List Step) : List Step := steps.foldl push []

theorem keywordClass_resolve (s : Step) (before : Option Step) :
    (s.resolve before).keywordClass = s.keywordClass := by
  unfold resolve
  split <;> rfl

end Step

end Rehearsal
