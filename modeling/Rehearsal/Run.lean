import Rehearsal.Document.Check
import Rehearsal.Result.Undefined
import Rehearsal.Run.Feature
import Rehearsal.Run.Stage

/-!
# Runs

A run opens with the hooks before everything, goes through the features of the plan, and
closes with the hooks after everything. If the opening fails, all features are skipped. A
failure of the opening or of the closing is fatal, unless it asked the run to stop.

`Runner.run` goes through the features one after the other. `Runner.runParallel` gives every
feature a copy of the context as the opening has left it.
-/

namespace Rehearsal

/-- A run that a hook around it has made worthless, with its result so far. -/
structure FatalError where
  point : HookPoint
  detail : String
  result : RunResult
  deriving Repr, Inhabited, BEq

def FatalError.message (e : FatalError) : String :=
  "fatal error in " ++ e.point.name ++ " hook: " ++ e.detail

inductive RunError where
  | malformed (m : Malformed)
  | fatal (e : FatalError)
  deriving Repr, Inhabited, BEq

namespace RunError

def message : RunError → String
  | malformed m => m.message
  | fatal e => e.message

def result? : RunError → Option RunResult
  | malformed _ => none
  | fatal e => some e.result

end RunError

/-- How a run has opened. -/
structure Opening where
  captured : Captured
  message : Option String
  fatal : Option HookError
  deriving DecidableEq, Repr, Inhabited

/-- The failure of a slot that does not ask the run to stop. -/
def SlotCall.fatal? (c : SlotCall) : Option HookError := c.error?.filter fun e => !e.stop

def SlotCall.message? (c : SlotCall) : Option String := c.error?.map HookError.message

/-- The moment at which a clock that stands still starts a run. -/
def epoch : String := "1970-01-01T00:00:00Z"

/-- The result of a run over the features, with the status, the scenarios to run again and
the undefined steps found in them. -/
def RunResult.ofFeatures (fs : List FeatureResult) (fatal : Bool) (message : Option String)
    (captured : Captured) (cancelled : Bool) : RunResult :=
  ⟨epoch, .zero, runStatus fs fatal, fs, message, captured, failedIds fs,
    UndefinedStep.collect fs, cancelled⟩

namespace RunOptions

def openRun (o : RunOptions) : Work Opening := do
  Work.enter .suite []
  let call ← o.slot .beforeAll .suite none
  return ⟨call.captured, call.message?, call.fatal?⟩

def closeRun (o : RunOptions) (opening : Opening) (fs : List FeatureResult) :
    Work (Except FatalError RunResult) := do
  let call ← o.slot .afterAll .suite (some (.rollup (fs.map (·.status))))
  Work.leave
  let cancelled ← Work.isStopped
  let fatal := opening.fatal.or call.fatal?
  let result := RunResult.ofFeatures fs fatal.isSome (joinMessages opening.message call.message?)
    (opening.captured ++ call.captured) cancelled
  match fatal with
  | some e => return .error ⟨e.point, e.detail, result⟩
  | none => return .ok result

def runPlan (o : RunOptions) (p : Plan) : Work (Except FatalError RunResult) := do
  let opening ← o.openRun
  let fs ←
    (if opening.fatal.isSome then pure (p.features.map (·.skipped))
    else o.runFeatures p.features)
  o.closeRun opening fs

end RunOptions

/-- How a run has ended: the stage it has left, and its result. -/
structure Ended (W : Type) where
  stage : Stage W
  result : Except RunError RunResult

namespace Runner

/-- Runs a suite, unless it is malformed, one feature after the other. -/
def run (r : Runner W) (suite : Suite) (world : W) (cancelled : Bool) : Ended W :=
  let start := Stage.start world cancelled
  match suite.violation? with
  | some m => ⟨start, .error (.malformed m)⟩
  | none =>
    let (stage, result) := r.perform (r.options.runPlan (r.options.plan suite)) start
    ⟨stage, result.mapError .fatal⟩

/-- Runs features one after the other, each on a copy of the context. -/
def performApart (r : Runner W) (context : Context) :
    List PlannedFeature → Stage W → Stage W × List FeatureResult
  | [], s => (s, [])
  | p :: rest, s =>
    let (s, result) := r.perform (r.options.runFeature p) { s with context := context.fork }
    let (s, results) := performApart r context rest s
    (s, result :: results)

def finish (r : Runner W) (opening : Opening) (s : Stage W) (fs : List FeatureResult) : Ended W :=
  let (t, result) := r.perform (r.options.closeRun opening fs) s
  ⟨t, result.mapError .fatal⟩

/-- Runs a suite, unless it is malformed, with a copy of the context for every feature. -/
def runParallel (r : Runner W) (suite : Suite) (world : W) (cancelled : Bool) : Ended W :=
  let start := Stage.start world cancelled
  match suite.violation? with
  | some m => ⟨start, .error (.malformed m)⟩
  | none =>
    let plan := r.options.plan suite
    let (s, opening) := r.perform r.options.openRun start
    if opening.fatal.isSome then r.finish opening s (plan.features.map (·.skipped))
    else
      let (t, fs) := r.performApart s.context plan.features s
      r.finish opening { t with context := s.context } fs

end Runner

end Rehearsal
