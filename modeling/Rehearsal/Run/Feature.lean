import Rehearsal.Run.Scenario

/-!
# Rules and features

A rule or a feature is run if one of its scenarios is selected and the run is not to stop.
It is entered, what lies in it is run in order, or skipped if the entry has failed, and it
is left.
-/

namespace Rehearsal

namespace RunOptions

def runRule (o : RunOptions) (around : List Background) (p : PlannedRule) : Work RuleResult :=
  if p.isSelected then do
    if ← Work.isStopped then return p.skipped (p.backgrounds around)
    else
      Work.enter .rule [("rule", .text p.rule.name)]
      let entry ← o.enterNode p.rule.tags .beforeRule (.rule p.rule)
      let scenarios ←
        (if entry.proceeds then o.runScenarios (p.backgrounds around) p.scenarios
        else pure (p.scenarios.map (·.skipped (p.backgrounds around))))
      let status := Status.rollup (scenarios.map (·.status))
      let report ← o.exitNode entry .afterRule (.rule p.rule) (entry.report.weigh status)
      Work.leave
      return { p.outcome (report.weigh status) scenarios with
        message := report.message?
        captured := report.captured }
  else return p.skipped (p.backgrounds around)

def runChild (o : RunOptions) (around : List Background) : PlannedChild → Work ChildResult
  | .scenario p => do
    let result ← o.runScenario around p
    return .scenario result
  | .rule p => do
    let result ← o.runRule around p
    return .rule result

def runChildren (o : RunOptions) (around : List Background) :
    List PlannedChild → Work (List ChildResult)
  | [] => return []
  | p :: rest => do
    let result ← o.runChild around p
    let results ← runChildren o around rest
    return result :: results

end RunOptions

/-- The steps of the background in the first scenario that was started. -/
def backgroundOf (scenarios : List ScenarioResult) : List StepResult :=
  match scenarios.find? fun s => decide (0 < s.attempts) with
  | some s => s.steps.filter (·.background)
  | none => []

namespace RunOptions

def runFeature (o : RunOptions) (p : PlannedFeature) : Work FeatureResult :=
  if p.isSelected then do
    if ← Work.isStopped then return p.skipped
    else
      Work.enter .feature [("feature", .text p.feature.name)]
      let entry ← o.enterNode p.feature.tags .beforeFeature (.feature p.feature)
      let children ←
        (if entry.proceeds then o.runChildren p.feature.backgrounds p.children
        else pure (p.children.map (·.barred p.feature.backgrounds)))
      let status := Status.rollup (children.map (·.status))
      let report ← o.exitNode entry .afterFeature (.feature p.feature) (entry.report.weigh status)
      Work.leave
      return { p.outcome (report.weigh status) children with
        message := report.message?
        captured := report.captured
        background := backgroundOf (children.flatMap ChildResult.scenarios) }
  else return p.skipped

def runFeatures (o : RunOptions) : List PlannedFeature → Work (List FeatureResult)
  | [] => return []
  | p :: rest => do
    let result ← o.runFeature p
    let results ← runFeatures o rest
    return result :: results

end RunOptions

end Rehearsal
