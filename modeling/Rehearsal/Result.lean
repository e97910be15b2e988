import Rehearsal.Plan
import Rehearsal.Registry
import Rehearsal.Result.Status

/-!
# Results

What a run has found out: a tree of results with one node for every step, scenario, rule
and feature of the plan, and what the run as a whole has to say.
-/

namespace Rehearsal

structure Duration where
  nanoseconds : Nat
  deriving DecidableEq, Repr, Inhabited

def Duration.zero : Duration := ⟨0⟩

structure Captured where
  stdout : String
  stderr : String
  log : String
  deriving DecidableEq, Repr, Inhabited

namespace Captured

def empty : Captured := ⟨"", "", ""⟩

/-- What was captured first, with what was captured after it. -/
def append (a b : Captured) : Captured :=
  ⟨a.stdout ++ b.stdout, a.stderr ++ b.stderr, a.log ++ b.log⟩

instance : Append Captured := ⟨append⟩

def isEmpty (c : Captured) : Bool := c.stdout.isEmpty && c.stderr.isEmpty && c.log.isEmpty

theorem append_def (a b : Captured) :
    a ++ b = ⟨a.stdout ++ b.stdout, a.stderr ++ b.stderr, a.log ++ b.log⟩ := rfl

@[simp] theorem append_empty (a : Captured) : a ++ empty = a := by
  simp [append_def, empty]

@[simp] theorem empty_append (a : Captured) : empty ++ a = a := by
  simp [append_def, empty]

theorem append_assoc (a b c : Captured) : a ++ b ++ c = a ++ (b ++ c) := by
  simp [append_def, String.append_assoc]

end Captured

structure StepResult where
  keyword : String
  stepType : Option KeywordClass
  text : String
  line : Nat
  status : Status
  duration : Duration
  message : Option String
  matched : Option StepMatch
  captured : Captured
  /-- Does the step come from a background? -/
  background : Bool
  deriving Repr, Inhabited, BEq

/-- The result of a scenario; it has no attempts if it was never started. -/
structure ScenarioResult where
  id : ScenarioId
  keyword : String
  name : String
  tags : List String
  status : Status
  duration : Duration
  message : Option String
  captured : Captured
  steps : List StepResult
  attempts : Nat
  deriving Repr, Inhabited, BEq

structure RuleResult where
  keyword : String
  name : String
  tags : List String
  line : Nat
  status : Status
  duration : Duration
  message : Option String
  captured : Captured
  scenarios : List ScenarioResult
  deriving Repr, Inhabited, BEq

inductive ChildResult where
  | scenario (s : ScenarioResult)
  | rule (r : RuleResult)
  deriving Repr, Inhabited, BEq

/-- The result of a feature. The steps of the background are those of the first scenario
that was started. -/
structure FeatureResult where
  keyword : String
  name : String
  path : String
  tags : List String
  line : Nat
  status : Status
  duration : Duration
  message : Option String
  captured : Captured
  background : List StepResult
  children : List ChildResult
  deriving Repr, Inhabited, BEq

structure UndefinedStep where
  path : String
  line : Nat
  keyword : String
  text : String
  snippet : String
  deriving DecidableEq, Repr, Inhabited

structure RunResult where
  /-- The moment of the start, as a date and a time of day. -/
  startedAt : String
  duration : Duration
  status : Status
  features : List FeatureResult
  message : Option String
  captured : Captured
  /-- The scenarios that failed, in order, each once. -/
  rerun : List ScenarioId
  undefined : List UndefinedStep
  cancelled : Bool
  deriving Repr, Inhabited, BEq

namespace ScenarioResult

def failedStep? (s : ScenarioResult) : Option StepResult := s.steps.find? (·.status.isFailure)

end ScenarioResult

namespace ChildResult

def status : ChildResult → Status
  | scenario s => s.status
  | rule r => r.status

def scenarios : ChildResult → List ScenarioResult
  | scenario s => [s]
  | rule r => r.scenarios

def rule? : ChildResult → Option RuleResult
  | scenario _ => none
  | rule r => some r

end ChildResult

namespace FeatureResult

def scenarios (f : FeatureResult) : List ScenarioResult := f.children.flatMap ChildResult.scenarios

def rules (f : FeatureResult) : List RuleResult := f.children.filterMap ChildResult.rule?

end FeatureResult

def scenariosOf (fs : List FeatureResult) : List ScenarioResult :=
  fs.flatMap FeatureResult.scenarios

/-- The identities of the scenarios that failed, in order, each once. -/
def failedIds (fs : List FeatureResult) : List ScenarioId :=
  ScenarioId.sorted (((scenariosOf fs).filter (·.status.isFailure)).map (·.id))

/-- The status of a run over some features; `fatal` tells whether a hook around the run has
failed. -/
def runStatus (fs : List FeatureResult) (fatal : Bool) : Status :=
  let status := Status.rollup (fs.map (·.status))
  if fatal then status.max .error else status

namespace RunResult

def scenarios (r : RunResult) : List ScenarioResult := scenariosOf r.features

def failing (r : RunResult) : List ScenarioResult := r.scenarios.filter (·.status.isFailure)

/-- Is the status at most `passed`? -/
def isSuccess (r : RunResult) : Bool := r.status.isSuccess

end RunResult

@[simp] theorem scenariosOf_cons (f : FeatureResult) (fs : List FeatureResult) :
    scenariosOf (f :: fs) = f.scenarios ++ scenariosOf fs := by
  simp [scenariosOf]

end Rehearsal
