import Rehearsal.Result

/-!
# Skipped nodes

The results of nodes of a plan for which nothing was called. They list everything below the
node, as the results of nodes that were started do.
-/

namespace Rehearsal

/-- The steps of the backgrounds, then those of a scenario; every step is given with whether
it comes from a background. -/
def Scenario.listedSteps (backgrounds : List Background) (s : Scenario) : List (Step × Bool) :=
  ((backgrounds.flatMap (·.steps)).map fun step => (step, true)) ++
    s.steps.map fun step => (step, false)

def Feature.backgrounds (f : Feature) : List Background := f.background.toList

def StepResult.skipped (step : Step) (background : Bool) : StepResult :=
  ⟨step.keyword, step.stepType, step.text, step.line, .skipped, .zero, none, none, .empty,
    background⟩

namespace PlannedScenario

/-- The result of a scenario with the given steps and nothing else yet. -/
def outcome (p : PlannedScenario) (status : Status) (steps : List StepResult) : ScenarioResult :=
  ⟨p.id, p.scenario.keyword, p.scenario.name, p.tags.names, status, .zero, none, .empty, steps, 0⟩

def skipped (backgrounds : List Background) (p : PlannedScenario) : ScenarioResult :=
  p.outcome .skipped
    ((p.scenario.listedSteps backgrounds).map fun s => StepResult.skipped s.1 s.2)

end PlannedScenario

namespace PlannedRule

def backgrounds (around : List Background) (p : PlannedRule) : List Background :=
  around ++ p.rule.background.toList

def outcome (p : PlannedRule) (status : Status) (scenarios : List ScenarioResult) : RuleResult :=
  ⟨p.rule.keyword, p.rule.name, p.rule.tags.names, p.rule.line, status, .zero, none, .empty,
    scenarios⟩

def skipped (backgrounds : List Background) (p : PlannedRule) : RuleResult :=
  p.outcome .skipped (p.scenarios.map (·.skipped backgrounds))

end PlannedRule

namespace PlannedChild

def skipped (around : List Background) : PlannedChild → ChildResult
  | scenario p => .scenario (p.skipped around)
  | rule p => .rule (p.skipped (p.backgrounds around))

/-- The result of a child of a feature whose entry has failed. Scenarios of rules list the
background of the feature only. -/
def barred (around : List Background) : PlannedChild → ChildResult
  | scenario p => .scenario (p.skipped around)
  | rule p => .rule (p.skipped around)

end PlannedChild

namespace PlannedFeature

def outcome (p : PlannedFeature) (status : Status) (children : List ChildResult) : FeatureResult :=
  ⟨p.feature.keyword, p.feature.name, p.feature.path, p.feature.tags.names, p.feature.line,
    status, .zero, none, .empty, [], children⟩

def skipped (p : PlannedFeature) : FeatureResult :=
  p.outcome .skipped (p.children.map (·.skipped p.feature.backgrounds))

end PlannedFeature

end Rehearsal
