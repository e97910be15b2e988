import Rehearsal.Run.Skipped
import Rehearsal.Run.Slot

/-!
# Scenarios

A step is looked up, and if it is found its implementation is called between the hooks
before and after the step. A scenario is entered, its steps are tried until one of them
halts it, and it is left; as long as it fails, it may be tried again.
-/

namespace Rehearsal

def Step.undefinedMessage (s : Step) : String := "undefined step: " ++ s.keyword ++ " " ++ s.text

/-- What the call of an implementation means for its step. -/
structure StepVerdict where
  status : Status
  message : Option String
  captured : Captured
  deriving DecidableEq, Repr, Inhabited

def joinMessages : Option String → Option String → Option String
  | some a, some b => some (a ++ "\n" ++ b)
  | some a, none => some a
  | none, b => b

namespace RunOptions

/-- Calls the implementation of a step. An implementation that asks for it stops the run. -/
def callStep (m : StepMatch) (step : Step) : Work StepVerdict := do
  let reply ← Work.call m step
  match reply.outcome.failure? with
  | none => return ⟨.passed, none, reply.captured⟩
  | some f =>
    if f.stop then
      Work.stop
      return ⟨.skipped, some f.message, reply.captured⟩
    else return ⟨.failed, some f.message, reply.captured⟩

def runMatched (o : RunOptions) (m : StepMatch) (step : Step) (background : Bool) :
    Work StepResult := do
  let before ← o.slot .beforeStep (.step step) none
  let report := HookReport.empty.add before
  let verdict ←
    (if before.isOk then callStep m step
    else pure ⟨if report.failed then .error else .skipped, none, .empty⟩)
  let after ← o.slot .afterStep (.step step) (some verdict.status)
  let report := report.add after
  return { StepResult.skipped step background with
    status := report.weigh verdict.status
    message := joinMessages verdict.message report.message?
    matched := some m
    captured := before.captured ++ verdict.captured ++ after.captured }

def runStep (o : RunOptions) (step : Step) (background : Bool) : Work StepResult := do
  let blank := StepResult.skipped step background
  match ← Work.find step with
  | .error e => return { blank with status := .error, message := some e.message }
  | .ok none =>
    return { blank with status := .undefined, message := some step.undefinedMessage }
  | .ok (some m) =>
    if o.dryRun then return { blank with status := .untested, matched := some m }
    else o.runMatched m step background

def halts (continueAfterFailure : Bool) : Status → Bool
  | .failed => !continueAfterFailure
  | .undefined | .error => true
  | _ => false

/-- Runs steps until one halts the scenario or the run is to stop; the rest is skipped. -/
def runSteps (o : RunOptions) (continueAfterFailure : Bool) :
    List (Step × Bool) → Work (List StepResult)
  | [] => return []
  | (step, background) :: rest => do
    if ← Work.isStopped then
      return ((step, background) :: rest).map fun s => StepResult.skipped s.1 s.2
    else
      let result ← o.runStep step background
      if halts continueAfterFailure result.status then
        return result :: rest.map fun s => StepResult.skipped s.1 s.2
      else
        let results ← runSteps o continueAfterFailure rest
        return result :: results

/-- The status of a scenario as its steps and the request to skip it have it. -/
def bodyStatus (o : RunOptions) (entered : Bool) (skipReason : Option String)
    (steps : List StepResult) : Status :=
  if skipReason.isSome then .skipped
  else if steps.isEmpty && entered then if o.dryRun then .untested else .passed
  else .rollup (steps.map (·.status))

def tryScenario (o : RunOptions) (backgrounds : List Background) (p : PlannedScenario) :
    Work ScenarioResult := do
  Work.enter .scenario [("scenario", .text p.scenario.name), ("tags", .texts p.tags.names)]
  Work.reset p.continueAfterFailure
  let entry ← o.enterNode p.scenario.tags .beforeScenario (.scenario p.scenario)
  let control ← Work.control
  let listed := p.scenario.listedSteps backgrounds
  let steps ←
    (if entry.proceeds && control.skipReason.isNone then
      o.runSteps control.continueAfterFailure listed
    else pure (listed.map fun s => StepResult.skipped s.1 s.2))
  let status := o.bodyStatus entry.proceeds control.skipReason steps
  let report ← o.exitNode entry .afterScenario (.scenario p.scenario) (entry.report.weigh status)
  Work.leave
  return { p.outcome (report.weigh status) steps with
    message := report.message?.or control.skipReason
    captured := report.captured }

/-- Tries a scenario that was tried `before` times already, and again up to `left` times as
long as it fails and the run is not to stop. -/
def tryAgain (o : RunOptions) (backgrounds : List Background) (p : PlannedScenario)
    (before : Nat) : Nat → Work ScenarioResult
  | 0 => do
    let result ← o.tryScenario backgrounds p
    return { result with attempts := before + 1 }
  | left + 1 => do
    let result ← o.tryScenario backgrounds p
    if result.status.isFailure then
      if ← Work.isStopped then return { result with attempts := before + 1 }
      else tryAgain o backgrounds p (before + 1) left
    else return { result with attempts := before + 1 }

def runScenario (o : RunOptions) (backgrounds : List Background) (p : PlannedScenario) :
    Work ScenarioResult :=
  if p.selected then do
    if ← Work.isStopped then return p.skipped backgrounds
    else
      let result ← o.tryAgain backgrounds p 0 (p.maxAttempts - 1)
      if result.status.isFailure && o.stopOnFailure then
        Work.stop
        return result
      else return result
  else return p.skipped backgrounds

def runScenarios (o : RunOptions) (backgrounds : List Background) :
    List PlannedScenario → Work (List ScenarioResult)
  | [] => return []
  | p :: rest => do
    let result ← o.runScenario backgrounds p
    let results ← runScenarios o backgrounds rest
    return result :: results

end RunOptions

end Rehearsal
