import Rehearsal.Result

/-!
# Counts

How many nodes have which status. `RunResult.summary` counts features, rules, scenarios and
steps; the steps of the background are counted once a feature, in the first scenario that
was started and has any.
-/

namespace Rehearsal

structure StatusCounts where
  untested : Nat
  skipped : Nat
  passed : Nat
  undefined : Nat
  error : Nat
  failed : Nat
  deriving DecidableEq, Repr, Inhabited

namespace StatusCounts

def zero : StatusCounts := ⟨0, 0, 0, 0, 0, 0⟩

def get (c : StatusCounts) : Status → Nat
  | .untested => c.untested
  | .skipped => c.skipped
  | .passed => c.passed
  | .undefined => c.undefined
  | .error => c.error
  | .failed => c.failed

def ofNumbers (n : Status → Nat) : StatusCounts :=
  ⟨n .untested, n .skipped, n .passed, n .undefined, n .error, n .failed⟩

def record (c : StatusCounts) : Status → StatusCounts
  | .untested => { c with untested := c.untested + 1 }
  | .skipped => { c with skipped := c.skipped + 1 }
  | .passed => { c with passed := c.passed + 1 }
  | .undefined => { c with undefined := c.undefined + 1 }
  | .error => { c with error := c.error + 1 }
  | .failed => { c with failed := c.failed + 1 }

def ofList (ss : List Status) : StatusCounts := ss.foldl record zero

def total (c : StatusCounts) : Nat :=
  c.untested + c.skipped + c.passed + c.undefined + c.error + c.failed

theorem get_zero (s : Status) : zero.get s = 0 := by cases s <;> rfl

theorem get_record (c : StatusCounts) (s t : Status) :
    (c.record s).get t = c.get t + if s = t then 1 else 0 := by
  cases s <;> cases t <;> simp [record, get]

theorem get_foldl_record (ss : List Status) (c : StatusCounts) (s : Status) :
    (ss.foldl record c).get s = c.get s + ss.count s := by
  induction ss generalizing c with
  | nil => simp
  | cons a rest ih =>
    rw [List.foldl_cons, ih, get_record, List.count_cons]
    simp only [beq_iff_eq]
    omega

/-- The number for a status is the number of its occurrences. -/
theorem get_ofList (ss : List Status) (s : Status) : (ofList ss).get s = ss.count s := by
  rw [ofList, get_foldl_record, get_zero, Nat.zero_add]

end StatusCounts

structure Summary where
  features : StatusCounts
  rules : StatusCounts
  scenarios : StatusCounts
  steps : StatusCounts
  duration : Duration
  deriving DecidableEq, Repr, Inhabited

namespace ScenarioResult

/-- Was the scenario started, and has it steps of a background? -/
def ranBackground (s : ScenarioResult) : Bool :=
  decide (0 < s.attempts) && s.steps.any (·.background)

end ScenarioResult

/-- The statuses of the steps of some scenarios that are to be counted; `done` tells
whether the background was counted before. -/
def countedSteps (done : Bool) : List ScenarioResult → List Status
  | [] => []
  | s :: rest =>
    let counts := !done && s.ranBackground
    ((s.steps.filter fun step => !step.background || counts).map (·.status)) ++
      countedSteps (done || counts) rest

def RunResult.summary (r : RunResult) : Summary :=
  ⟨.ofList (r.features.map (·.status)),
    .ofList ((r.features.flatMap (·.rules)).map (·.status)),
    .ofList (r.scenarios.map (·.status)),
    .ofList (r.features.flatMap fun f => countedSteps false f.scenarios),
    r.duration⟩

@[simp] theorem countedSteps_nil (done : Bool) : countedSteps done [] = [] := rfl

end Rehearsal
