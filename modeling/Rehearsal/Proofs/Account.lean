import Rehearsal.Proofs.Passage

/-!
# Accounts of runs

An account puts the cues of a run in the order of its plan: it is the tree of the plan in
which every node carries the slots called for it, the attempts at it and its result. The
cues of an account are the cues of the run it tells of, each at the one node it belongs to,
so an account says for which node user code was called and which calls were for naught.

`Sound` says of an account that it tells of a run as runs go. The accounts of attempts that
were not the last are kept beside the one whose result counts. A node that was not started
has an account too, without cues; `e` tells whether the node around it was entered.
-/

namespace Rehearsal

/-- What holds for a run as a whole. -/
structure Terms where
  options : RunOptions
  company : Company
  /-- Was the run to stop in the end? -/
  stopped : Bool

def HookScope.level : HookScope → ScopeLevel
  | .suite => .suite
  | .feature _ => .feature
  | .rule _ => .rule
  | .scenario _ => .scenario
  | _ => .root

/-- A node is started when the wish to stop is `b`, and passed through. -/
structure Visited (t : Terms) (b : Bool) (n : HookScope) (values : List (String × Datum))
    (status : Status) (start : EnterCue) (p : Passage) : Prop where
  level : start.level = n.level
  values : start.values = values
  calm : t.company.Lets b start.stopped
  /-- Nothing lies between the start and the first slot. -/
  first : ∀ s, p.before.head? = some s → t.company.Lets start.stopped s.stopped
  crosses : p.Crosses t.options n status

/-- What the call of an implementation means for its step. -/
def CallCue.verdict (c : CallCue) : StepVerdict :=
  match c.reply.outcome.failure? with
  | none => ⟨.passed, none, c.reply.captured⟩
  | some f =>
    if f.stop then ⟨.skipped, some f.message, c.reply.captured⟩
    else ⟨.failed, some f.message, c.reply.captured⟩

/-- What is said of a step before the slot after it: the verdict of the call, or that of the
slot before it if there was no call. -/
def SlotCue.verdict (before : SlotCue) : Option CallCue → StepVerdict
  | none => ⟨if before.fails then .error else .skipped, none, .empty⟩
  | some c => c.verdict

structure StepAccount where
  step : Step
  background : Bool
  start : Option FindCue
  passage : Passage
  call : Option CallCue
  result : StepResult

namespace StepAccount

def idle (s : Step × Bool) : StepAccount := ⟨s.1, s.2, none, .none, none, .skipped s.1 s.2⟩

def listed (a : StepAccount) : Step × Bool := (a.step, a.background)

def cues (a : StepAccount) : List Cue :=
  a.start.toList.map .find ++ a.passage.around (a.call.toList.map .call)

/-- How a step goes that is started. -/
inductive Started (t : Terms) : StepAccount → Prop where
  | faulty {step : Step} {background stopped : Bool} {e : MatchError}
      (calm : t.company.Lets false stopped) :
      Started t ⟨step, background, some ⟨step, .error e, stopped⟩, .none, none,
        { StepResult.skipped step background with
          status := .error, message := some e.message }⟩
  | unknown {step : Step} {background stopped : Bool} (calm : t.company.Lets false stopped) :
      Started t ⟨step, background, some ⟨step, .ok none, stopped⟩, .none, none,
        { StepResult.skipped step background with
          status := .undefined, message := some step.undefinedMessage }⟩
  | dry {step : Step} {background stopped : Bool} {m : StepMatch} (hdry : t.options.dryRun = true)
      (calm : t.company.Lets false stopped) :
      Started t ⟨step, background, some ⟨step, .ok (some m), stopped⟩, .none, none,
        { StepResult.skipped step background with status := .untested, matched := some m }⟩
  | matched {step : Step} {background stopped : Bool} {m : StepMatch} {before after : SlotCue}
      {call : Option CallCue} (hdry : t.options.dryRun = false)
      (calm : t.company.Lets false stopped)
      (first : t.company.Lets stopped before.stopped)
      (opens : before.event = ⟨.beforeStep, .step step, none⟩)
      (calls : call.isSome = before.isOk) (own : ∀ c ∈ call, c.found = m ∧ c.step = step)
      (closes : after.event = ⟨.afterStep, .step step, some (before.verdict call).status⟩) :
      Started t ⟨step, background, some ⟨step, .ok (some m), stopped⟩, ⟨[before], [after]⟩, call,
        { StepResult.skipped step background with
          status := (HookReport.ofSlots [before, after]).weigh (before.verdict call).status
          message := joinMessages (before.verdict call).message
            (HookReport.ofSlots [before, after]).message?
          matched := some m
          captured := before.call.captured ++ (before.verdict call).captured ++
            after.call.captured }⟩

/-- Steps in their order: they are started one by one until one of them halts the scenario
or the run is to stop. -/
inductive Sequel (t : Terms) (c : Bool) : List StepAccount → Prop where
  | nil : Sequel t c []
  | stopped (rest : List (Step × Bool)) (hstop : t.stopped = true) : Sequel t c (rest.map idle)
  | halted {a : StepAccount} (rest : List (Step × Bool)) (hstart : a.Started t)
      (hhalt : RunOptions.halts c a.result.status = true) : Sequel t c (a :: rest.map idle)
  | further {a : StepAccount} {rest : List StepAccount} (hstart : a.Started t)
      (hhalt : RunOptions.halts c a.result.status = false) (hrest : Sequel t c rest) :
      Sequel t c (a :: rest)

end StepAccount

structure AttemptAccount where
  start : EnterCue
  passage : Passage
  control : Control
  steps : List StepAccount
  result : ScenarioResult

namespace AttemptAccount

def cues (a : AttemptAccount) : List Cue :=
  .enter a.start :: a.passage.around (a.steps.flatMap (·.cues))

def bodyStatus (o : RunOptions) (a : AttemptAccount) : Status :=
  o.bodyStatus a.passage.proceeds a.control.skipReason (a.steps.map (·.result))

/-- The attempt goes as attempts at the scenario go. -/
structure Sound (t : Terms) (backgrounds : List Background) (p : PlannedScenario)
    (a : AttemptAccount) : Prop where
  visited : Visited t false (.scenario p.scenario)
    [("scenario", .text p.scenario.name), ("tags", .texts p.tags.names)]
    ((HookReport.ofSlots a.passage.before).weigh (a.bodyStatus t.options)) a.start a.passage
  listed : a.steps.map (·.listed) = p.scenario.listedSteps backgrounds
  sequel : a.passage.proceeds = true → a.control.skipReason = none →
    StepAccount.Sequel t a.control.continueAfterFailure a.steps
  barred : a.passage.proceeds = false ∨ a.control.skipReason ≠ none →
    a.steps = (p.scenario.listedSteps backgrounds).map StepAccount.idle
  result : a.result =
    { p.outcome ((HookReport.ofSlots a.passage.slots).weigh (a.bodyStatus t.options))
        (a.steps.map (·.result)) with
      message := (HookReport.ofSlots a.passage.slots).message?.or a.control.skipReason
      captured := (HookReport.ofSlots a.passage.slots).captured }

end AttemptAccount

/-- The account of a scenario: the attempts that did not count, and the one that did. -/
structure ScenarioAccount where
  planned : PlannedScenario
  discarded : List AttemptAccount
  kept : Option AttemptAccount
  result : ScenarioResult

namespace ScenarioAccount

def idle (backgrounds : List Background) (p : PlannedScenario) : ScenarioAccount :=
  ⟨p, [], none, p.skipped backgrounds⟩

def attempts (a : ScenarioAccount) : List AttemptAccount := a.discarded ++ a.kept.toList

def cues (a : ScenarioAccount) : List Cue := a.attempts.flatMap (·.cues)

inductive Sound (t : Terms) (e : Bool) (backgrounds : List Background) :
    ScenarioAccount → Prop where
  | idle (p : PlannedScenario) (hidle : p.selected = false ∨ t.stopped = true ∨ e = false) :
      Sound t e backgrounds (idle backgrounds p)
  | tried {p : PlannedScenario} {discarded : List AttemptAccount} {kept : AttemptAccount}
      (he : e = true) (hselected : p.selected = true)
      (hdiscarded : ∀ a ∈ discarded, a.Sound t backgrounds p ∧ a.result.status.isFailure = true)
      (hkept : kept.Sound t backgrounds p) (hbound : discarded.length < max 1 p.maxAttempts)
      (hend : discarded.length + 1 = max 1 p.maxAttempts ∨
        kept.result.status.isFailure = false ∨ t.stopped = true) :
      Sound t e backgrounds
        ⟨p, discarded, some kept, { kept.result with attempts := discarded.length + 1 }⟩

end ScenarioAccount

structure RuleAccount where
  planned : PlannedRule
  start : Option EnterCue
  passage : Passage
  scenarios : List ScenarioAccount
  result : RuleResult

namespace RuleAccount

/-- The account of a rule that was not started, with the given backgrounds. -/
def idle (backgrounds : List Background) (p : PlannedRule) : RuleAccount :=
  ⟨p, none, .none, p.scenarios.map (.idle backgrounds), p.skipped backgrounds⟩

def cues (a : RuleAccount) : List Cue :=
  a.start.toList.map .enter ++ a.passage.around (a.scenarios.flatMap (·.cues))

inductive Sound (t : Terms) (e : Bool) (around : List Background) : RuleAccount → Prop where
  | idle (p : PlannedRule) (hidle : p.isSelected = false ∨ t.stopped = true ∨ e = false) :
      Sound t e around (idle (if e then p.backgrounds around else around) p)
  | visited {p : PlannedRule} {start : EnterCue} {passage : Passage}
      {scenarios : List ScenarioAccount} (he : e = true) (hselected : p.isSelected = true)
      (hvisited : Visited t false (.rule p.rule) [("rule", .text p.rule.name)]
        ((HookReport.ofSlots passage.before).weigh
          (.rollup (scenarios.map fun s => s.result.status))) start passage)
      (hplanned : scenarios.map (·.planned) = p.scenarios)
      (hinside : ∀ s ∈ scenarios, s.Sound t passage.proceeds (p.backgrounds around)) :
      Sound t e around ⟨p, some start, passage, scenarios,
        { p.outcome ((HookReport.ofSlots passage.slots).weigh
            (.rollup (scenarios.map fun s => s.result.status))) (scenarios.map (·.result)) with
          message := (HookReport.ofSlots passage.slots).message?
          captured := (HookReport.ofSlots passage.slots).captured }⟩

end RuleAccount

/-- The account of a scenario of a feature, or of a rule. -/
inductive ChildAccount where
  | scenario (s : ScenarioAccount)
  | rule (r : RuleAccount)

namespace ChildAccount

def planned : ChildAccount → PlannedChild
  | scenario s => .scenario s.planned
  | rule r => .rule r.planned

def result : ChildAccount → ChildResult
  | scenario s => .scenario s.result
  | rule r => .rule r.result

def cues : ChildAccount → List Cue
  | scenario s => s.cues
  | rule r => r.cues

def scenarios : ChildAccount → List ScenarioAccount
  | scenario s => [s]
  | rule r => r.scenarios

def idle (around : List Background) : PlannedChild → ChildAccount
  | .scenario p => scenario (.idle around p)
  | .rule p => rule (.idle (p.backgrounds around) p)

/-- The account of a child of a feature whose entry has failed. -/
def barred (around : List Background) : PlannedChild → ChildAccount
  | .scenario p => scenario (.idle around p)
  | .rule p => rule (.idle around p)

def Sound (t : Terms) (e : Bool) (around : List Background) : ChildAccount → Prop
  | scenario s => s.Sound t e around
  | rule r => r.Sound t e around

end ChildAccount

structure FeatureAccount where
  planned : PlannedFeature
  start : Option EnterCue
  passage : Passage
  children : List ChildAccount
  result : FeatureResult

namespace FeatureAccount

def idle (p : PlannedFeature) : FeatureAccount :=
  ⟨p, none, .none, p.children.map (.idle p.feature.backgrounds), p.skipped⟩

def cues (a : FeatureAccount) : List Cue :=
  a.start.toList.map .enter ++ a.passage.around (a.children.flatMap (·.cues))

def scenarios (a : FeatureAccount) : List ScenarioAccount := a.children.flatMap (·.scenarios)

inductive Sound (t : Terms) (e : Bool) : FeatureAccount → Prop where
  | idle (p : PlannedFeature) (hidle : p.isSelected = false ∨ t.stopped = true ∨ e = false) :
      Sound t e (idle p)
  | visited {p : PlannedFeature} {start : EnterCue} {passage : Passage}
      {children : List ChildAccount} (he : e = true) (hselected : p.isSelected = true)
      (hvisited : Visited t false (.feature p.feature) [("feature", .text p.feature.name)]
        ((HookReport.ofSlots passage.before).weigh
          (.rollup (children.map fun c => c.result.status))) start passage)
      (hplanned : children.map (·.planned) = p.children)
      (hinside : ∀ c ∈ children, c.Sound t passage.proceeds p.feature.backgrounds) :
      Sound t e ⟨p, some start, passage, children,
        { p.outcome ((HookReport.ofSlots passage.slots).weigh
            (.rollup (children.map fun c => c.result.status))) (children.map (·.result)) with
          message := (HookReport.ofSlots passage.slots).message?
          captured := (HookReport.ofSlots passage.slots).captured
          background := backgroundOf ((children.map (·.result)).flatMap ChildResult.scenarios) }⟩

end FeatureAccount

/-- The account of a run; `fatal` is the failure that has made it worthless. -/
structure RunAccount where
  start : EnterCue
  passage : Passage
  features : List FeatureAccount
  fatal : Option HookError
  result : RunResult

namespace RunAccount

def cues (a : RunAccount) : List Cue :=
  .enter a.start :: a.passage.around (a.features.flatMap (·.cues))

def scenarios (a : RunAccount) : List ScenarioAccount := a.features.flatMap (·.scenarios)

def ending (a : RunAccount) : Except FatalError RunResult :=
  match a.fatal with
  | some e => .error ⟨e.point, e.detail, a.result⟩
  | none => .ok a.result

/-- The run goes as runs by the plan go; `b` is the wish to stop at its beginning. -/
structure Sound (t : Terms) (b : Bool) (p : Plan) (a : RunAccount) : Prop where
  visited : Visited t b .suite [] (.rollup (a.features.map fun f => f.result.status)) a.start
    a.passage
  planned : a.features.map (·.planned) = p.features
  inside : ∀ f ∈ a.features, f.Sound t a.passage.proceeds
  fatal : a.fatal = a.passage.slots.findSome? fun s => s.call.fatal?
  result : a.result = .ofFeatures (a.features.map (·.result)) a.fatal.isSome
    (HookReport.ofSlots a.passage.slots).message? (HookReport.ofSlots a.passage.slots).captured
    t.stopped

end RunAccount

end Rehearsal
