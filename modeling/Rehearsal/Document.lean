import Rehearsal.Document.Step
import Rehearsal.Tag

/-!
# Documents

A suite is a list of features. A feature holds scenarios, outlines and rules, and a rule
holds scenarios and outlines. Features and rules may have a background, whose steps come
before the steps of every scenario in them.
-/

namespace Rehearsal

/-- Steps that come before those of every scenario around. -/
structure Background where
  keyword : String
  name : String
  line : Nat
  steps : List Step
  deriving DecidableEq, Repr, Inhabited

/-- The row of an outline that a scenario was made from: the line of the outline and the
indices of the block of examples and of the row. -/
structure RowOrigin where
  outlineLine : Nat
  block : Nat
  row : Nat
  deriving DecidableEq, Repr, Inhabited

structure Scenario where
  keyword : String
  name : String
  tags : TagSet
  line : Nat
  steps : List Step
  origin : Option RowOrigin
  deriving DecidableEq, Repr, Inhabited

structure Examples where
  keyword : String
  name : String
  tags : TagSet
  line : Nat
  table : Table
  deriving DecidableEq, Repr, Inhabited

/-- A template of scenarios, with the examples to fill in. -/
structure Outline where
  keyword : String
  name : String
  tags : TagSet
  line : Nat
  steps : List Step
  examples : List Examples
  deriving DecidableEq, Repr, Inhabited

inductive Definition where
  | scenario (s : Scenario)
  | outline (o : Outline)
  deriving DecidableEq, Repr, Inhabited

structure Rule where
  keyword : String
  name : String
  tags : TagSet
  line : Nat
  background : Option Background
  children : List Definition
  deriving DecidableEq, Repr, Inhabited

inductive FeatureChild where
  | definition (d : Definition)
  | rule (r : Rule)
  deriving DecidableEq, Repr, Inhabited

structure Feature where
  keyword : String
  name : String
  path : String
  language : String
  tags : TagSet
  line : Nat
  background : Option Background
  children : List FeatureChild
  deriving DecidableEq, Repr, Inhabited

structure Suite where
  features : List Feature
  deriving DecidableEq, Repr, Inhabited

namespace Background

def blank : Background := ⟨"Background", "", 0, []⟩

def step (b : Background) (s : Step) : Background := { b with steps := Step.push b.steps s }

end Background

namespace Scenario

def named (name : String) : Scenario := ⟨"Scenario", name, .empty, 0, [], none⟩

def step (sc : Scenario) (s : Step) : Scenario := { sc with steps := Step.push sc.steps s }

end Scenario

namespace Examples

/-- A block of examples; it stands on the line before its table. -/
def ofTable (t : Table) : Examples := ⟨"Examples", "", .empty, t.line - 1, t⟩

end Examples

namespace Outline

def named (name : String) : Outline := ⟨"Scenario Outline", name, .empty, 0, [], []⟩

def step (o : Outline) (s : Step) : Outline := { o with steps := Step.push o.steps s }

end Outline

namespace Rule

def named (name : String) : Rule := ⟨"Rule", name, .empty, 0, none, []⟩

end Rule

namespace Feature

/-- A feature with the usual keyword and a name, on the first line of a document. -/
def named (name : String) : Feature := ⟨"Feature", name, "", "en", .empty, 1, none, []⟩

end Feature

end Rehearsal
