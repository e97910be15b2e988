import Rehearsal.Document.Outline
import Rehearsal.Text.Sorted

/-!
# Well-formed documents

Before a run every document is checked: each step has a type, each table below a step or
in examples has rows as wide as its headings, and each outline has examples with at least
one row and a column for every hole in the texts of its steps. The first violation in the
order of the document is reported.
-/

namespace Rehearsal

inductive Violation where
  | noType (keyword text : String)
  | rowWidth (cells headings : Nat)
  | noExamples (outline : String)
  | noRows (outline : String)
  | noColumn (hole outline : String)
  deriving DecidableEq, Repr, Inhabited

def Violation.detail : Violation → String
  | noType keyword text =>
    "conjunction step `" ++ keyword ++ " " ++ text ++
      "` has no preceding step to inherit a keyword class from"
  | rowWidth cells headings =>
    "table row has " ++ toString cells ++ " cells but the header has " ++ toString headings
  | noExamples outline => "scenario outline `" ++ outline ++ "` has no examples"
  | noRows outline => "examples of outline `" ++ outline ++ "` have no data rows"
  | noColumn hole outline =>
    "placeholder <" ++ hole ++ "> of outline `" ++ outline ++ "` is not an examples column"

structure Malformed where
  path : String
  line : Nat
  violation : Violation
  deriving DecidableEq, Repr, Inhabited

def Malformed.message (m : Malformed) : String :=
  m.path ++ ":" ++ toString m.line ++ ": " ++ m.violation.detail

/-- The first violation of a list that is checked one by one. -/
def firstViolation (check : α → Option Malformed) : List α → Option Malformed
  | [] => none
  | a :: rest =>
    match check a with
    | some m => some m
    | none => firstViolation check rest

namespace Table

/-- The first row that is not as wide as the headings. -/
def violation? (path : String) (t : Table) : Option Malformed :=
  (t.rows.find? fun row => row.cells.length != t.headings.length).map fun row =>
    ⟨path, row.line, .rowWidth row.cells.length t.headings.length⟩

end Table

namespace Step

def violation? (path : String) (s : Step) : Option Malformed :=
  if s.stepType.isNone then some ⟨path, s.line, .noType s.keyword s.text⟩
  else s.table?.bind (Table.violation? path)

end Step

namespace Outline

/-- The names of the holes in the texts of the steps, sorted, each once. -/
def holes (o : Outline) : List String :=
  Text.sorted (o.steps.flatMap fun s => Template.holes s.text)

def blockViolation? (path : String) (o : Outline) (e : Examples) : Option Malformed :=
  match e.table.violation? path with
  | some m => some m
  | none =>
    if e.table.rows.isEmpty then some ⟨path, e.line, .noRows o.name⟩
    else
      (o.holes.find? fun hole => (e.table.columnIndex? hole).isNone).map fun hole =>
        ⟨path, e.line, .noColumn hole o.name⟩

def violation? (path : String) (o : Outline) : Option Malformed :=
  match firstViolation (Step.violation? path) o.steps with
  | some m => some m
  | none =>
    if o.examples.isEmpty then some ⟨path, o.line, .noExamples o.name⟩
    else firstViolation (o.blockViolation? path) o.examples

end Outline

def Background.violation? (path : String) (b : Option Background) : Option Malformed :=
  b.bind fun b => firstViolation (Step.violation? path) b.steps

def Definition.violation? (path : String) : Definition → Option Malformed
  | scenario s => firstViolation (Step.violation? path) s.steps
  | outline o => o.violation? path

def Rule.violation? (path : String) (r : Rule) : Option Malformed :=
  match Background.violation? path r.background with
  | some m => some m
  | none => firstViolation (Definition.violation? path) r.children

def FeatureChild.violation? (path : String) : FeatureChild → Option Malformed
  | definition d => d.violation? path
  | rule r => r.violation? path

def Feature.violation? (f : Feature) : Option Malformed :=
  match Background.violation? f.path f.background with
  | some m => some m
  | none => firstViolation (FeatureChild.violation? f.path) f.children

def Suite.violation? (s : Suite) : Option Malformed := firstViolation Feature.violation? s.features

@[simp] theorem firstViolation_nil (check : α → Option Malformed) :
    firstViolation check [] = none := rfl

/-- There is no violation exactly when no element has one. -/
theorem firstViolation_eq_none_iff (check : α → Option Malformed) (as : List α) :
    firstViolation check as = none ↔ ∀ a ∈ as, check a = none := by
  induction as with
  | nil => simp
  | cons a rest ih =>
    unfold firstViolation
    cases h : check a with
    | none => simp [h, ih]
    | some m => simp [h]

end Rehearsal
