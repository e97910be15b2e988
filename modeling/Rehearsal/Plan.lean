import Rehearsal.Document.Outline
import Rehearsal.Plan.Location
import Rehearsal.Regex.Meaning
import Rehearsal.Tag.Filter

/-!
# Plans

The options of a run say which scenarios are selected, how often a scenario may be tried,
and where a scenario goes on after a failed step. A plan lists the concrete scenarios of
every feature, in the order of the document, with what the options say about them.
-/

namespace Rehearsal

structure NamePattern where
  source : String
  regex : Regex.Compiled
  deriving Repr, Inhabited

def NamePattern.isFoundIn (p : NamePattern) (name : String) : Bool :=
  p.regex.root.isFoundIn name.toList.toArray

structure Selection where
  tags : TagFilter
  names : List NamePattern
  locations : List Location
  deriving Repr, Inhabited

def Selection.all : Selection := ⟨.all, [], []⟩

/-- Is a scenario with the given effective tags selected? -/
def Selection.selects (s : Selection) (path : String) (scenario : Scenario) (tags : TagSet) :
    Bool :=
  s.tags.accepts tags.names &&
    (s.names.isEmpty || s.names.any fun p => p.isFoundIn scenario.name) &&
    (s.locations.isEmpty || s.locations.any fun l => l.picks path scenario)

structure RetryPolicy where
  maxAttempts : Nat
  tags : TagFilter
  deriving Repr, Inhabited

structure RunOptions where
  selection : Selection
  continueAfterFailure : Option TagExpression
  stopOnFailure : Bool
  dryRun : Bool
  jobs : Nat
  retry : Option RetryPolicy
  deriving Repr, Inhabited

def RunOptions.default : RunOptions := ⟨.all, none, false, false, 1, none⟩

structure ScenarioId where
  path : String
  line : Nat
  name : String
  deriving DecidableEq, Repr, Inhabited

namespace ScenarioId

def render (id : ScenarioId) : String := id.path ++ ":" ++ toString id.line

/-- Identities are ordered by path, then line, then name. -/
def isBefore (a b : ScenarioId) : Bool :=
  if a.path = b.path then
    if a.line = b.line then a.name < b.name else a.line < b.line
  else a.path < b.path

/-- Puts an identity into a sorted list, unless it is there. -/
def insert (id : ScenarioId) : List ScenarioId → List ScenarioId
  | [] => [id]
  | a :: rest =>
    if id.isBefore a then id :: a :: rest
    else if id = a then a :: rest
    else a :: insert id rest

def sorted (ids : List ScenarioId) : List ScenarioId := ids.foldr insert []

theorem mem_insert (id x : ScenarioId) (ids : List ScenarioId) :
    x ∈ insert id ids ↔ x = id ∨ x ∈ ids := by
  induction ids with
  | nil => simp [insert]
  | cons a rest ih =>
    unfold insert
    split
    · simp
    · split
      · rename_i h
        simp [h]
      · simp only [List.mem_cons, ih]
        constructor
        · rintro (h | h | h) <;> simp [h]
        · rintro (h | h | h) <;> simp [h]

/-- Sorting keeps the identities. -/
theorem mem_sorted (x : ScenarioId) (ids : List ScenarioId) : x ∈ sorted ids ↔ x ∈ ids := by
  induction ids with
  | nil => simp [sorted]
  | cons id rest ih =>
    have : sorted (id :: rest) = insert id (sorted rest) := rfl
    rw [this, mem_insert, ih]
    simp

end ScenarioId

/-- A concrete scenario with what the options say about it. -/
structure PlannedScenario where
  scenario : Scenario
  id : ScenarioId
  tags : TagSet
  selected : Bool
  continueAfterFailure : Bool
  maxAttempts : Nat
  deriving DecidableEq, Repr, Inhabited

structure PlannedRule where
  rule : Rule
  tags : TagSet
  scenarios : List PlannedScenario
  deriving DecidableEq, Repr, Inhabited

inductive PlannedChild where
  | scenario (s : PlannedScenario)
  | rule (r : PlannedRule)
  deriving DecidableEq, Repr, Inhabited

structure PlannedFeature where
  feature : Feature
  children : List PlannedChild
  deriving DecidableEq, Repr, Inhabited

structure Plan where
  features : List PlannedFeature
  deriving DecidableEq, Repr, Inhabited

namespace PlannedChild

def scenarios : PlannedChild → List PlannedScenario
  | scenario s => [s]
  | rule r => r.scenarios

end PlannedChild

namespace PlannedRule

def isSelected (r : PlannedRule) : Bool := r.scenarios.any (·.selected)

end PlannedRule

namespace PlannedFeature

def scenarios (f : PlannedFeature) : List PlannedScenario :=
  f.children.flatMap PlannedChild.scenarios

def isSelected (f : PlannedFeature) : Bool := f.scenarios.any (·.selected)

end PlannedFeature

namespace RunOptions

def planScenario (o : RunOptions) (path : String) (around : List TagSet) (s : Scenario) :
    PlannedScenario :=
  let tags := TagSet.effective (around ++ [s.tags])
  ⟨s, ⟨path, s.line, s.name⟩, tags, o.selection.selects path s tags,
    match o.continueAfterFailure with
    | some e => e.holds tags.names
    | none => false,
    match o.retry with
    | some policy => if policy.tags.accepts tags.names then policy.maxAttempts else 1
    | none => 1⟩

def planChild (o : RunOptions) (f : Feature) : FeatureChild → List PlannedChild
  | .definition d => d.scenarios.map fun s => .scenario (o.planScenario f.path [f.tags] s)
  | .rule r =>
    [.rule ⟨r, .effective [f.tags, r.tags], (r.children.flatMap Definition.scenarios).map
      fun s => o.planScenario f.path [f.tags, r.tags] s⟩]

def planFeature (o : RunOptions) (f : Feature) : PlannedFeature :=
  ⟨f, f.children.flatMap (o.planChild f)⟩

def plan (o : RunOptions) (s : Suite) : Plan := ⟨s.features.map o.planFeature⟩

end RunOptions

namespace Plan

def scenarioCount (p : Plan) : Nat := (p.features.flatMap PlannedFeature.scenarios).length

def selectedCount (p : Plan) : Nat :=
  ((p.features.flatMap PlannedFeature.scenarios).filter (·.selected)).length

end Plan

end Rehearsal
