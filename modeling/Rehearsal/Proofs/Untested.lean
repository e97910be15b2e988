import Rehearsal.Proofs.Account.Moves
import Rehearsal.Proofs.RollUp

/-!
# Untested nodes

Outside dry runs no step is left untested, and a scenario is only if its last attempt `BreaksOff`:
it has no steps, and a slot on the way in has asked that the run be stopped. A rule or a feature is
left untested if everything in it is.

`Runner.untested_exactly` says so of every run that has ended: its result is `Tested` unless some
scenario breaks off. `Runner.stop_before_bare_scenario` is such a run.
-/

namespace Rehearsal

theorem Status.rollup_eq_untested_iff {ss : List Status} :
    rollup ss = untested ↔ ∀ s ∈ ss, s = untested := by
  constructor
  · intro h s hs
    have hle : s ≤ rollup ss := (foldl_max ss untested).2.1 s hs
    rw [h] at hle
    exact eq_untested_of_le hle
  · intro h
    rcases (foldl_max ss untested).2.2 with hstart | hmem
    · exact hstart
    · exact h _ hmem

theorem Status.max_error_ne_untested (s : Status) : s.max error ≠ untested := by
  cases s <;> decide

theorem HookReport.weigh_eq_untested_iff {ss : List SlotCue} {s : Status} :
    (ofSlots ss).weigh s = .untested ↔ (∀ x ∈ ss, x.fails = false) ∧ s = .untested := by
  rw [weigh_ofSlots, ← SlotCue.any_fails_eq_false_iff]
  cases ss.any (·.fails) with
  | true => simp [Status.max_error_ne_untested]
  | false => simp

variable {t : Terms} {e : Bool} {around : List Background}

/-- The verdict on a step that was started is never that it is untested. -/
theorem SlotCue.status_verdict_ne_untested (before : SlotCue) (call : Option CallCue) :
    (before.verdict call).status ≠ .untested := by
  cases call with
  | none =>
    change (if before.fails then Status.error else .skipped) ≠ .untested
    split <;> exact Status.noConfusion
  | some c =>
    change c.verdict.status ≠ .untested
    unfold CallCue.verdict
    split
    · exact Status.noConfusion
    · split <;> exact Status.noConfusion

theorem StepAccount.Started.status_ne_untested {a : StepAccount} (hdry : t.options.dryRun = false)
    (h : a.Started t) : a.result.status ≠ .untested := by
  cases h with
  | faulty => exact Status.noConfusion
  | unknown => exact Status.noConfusion
  | dry hdry' =>
    rw [hdry] at hdry'
    cases hdry'
  | @matched step background stopped m before after call =>
    intro huntested
    exact before.status_verdict_ne_untested call (HookReport.weigh_eq_untested_iff.1 huntested).2

namespace AttemptAccount

/-- The scenario has no steps and was not asked to be skipped, and a slot on the way in has asked
that the run be stopped, while none has failed otherwise. -/
structure BreaksOff (a : AttemptAccount) : Prop where
  bare : a.steps = []
  unskipped : a.control.skipReason = none
  stop : ∃ s ∈ a.passage.before, s.asksStop = true
  clean : a.passage.Clean

variable {p : PlannedScenario} {a : AttemptAccount}

theorem Sound.steps_ne_untested (hdry : t.options.dryRun = false) (h : a.Sound t around p) :
    ∀ s ∈ a.result.steps, s.status ≠ .untested := by
  rw [h.steps_result]
  refine List.forall_mem_map.2 fun s hs => ?_
  rcases h.started_or_idle s hs with hstart | ⟨listed, rfl⟩
  · exact hstart.status_ne_untested hdry
  · exact Status.noConfusion

theorem Sound.bodyStatus_eq_untested_iff (hdry : t.options.dryRun = false)
    (h : a.Sound t around p) :
    a.bodyStatus t.options = .untested ↔
      a.steps = [] ∧ a.control.skipReason = none ∧ a.passage.proceeds = false := by
  unfold bodyStatus RunOptions.bodyStatus
  cases hskip : a.control.skipReason with
  | some reason => simp
  | none =>
    cases hsteps : a.steps with
    | nil => cases a.passage.proceeds <;> simp [hdry]
    | cons s rest =>
      have hmem : s.result ∈ a.result.steps := by
        rw [h.steps_result, hsteps]
        exact List.mem_cons_self
      have hne := h.steps_ne_untested hdry s.result hmem
      simp [Status.rollup_eq_untested_iff, hne]

/-- Outside dry runs an attempt is left untested exactly if it breaks off. -/
theorem Sound.status_eq_untested_iff (hdry : t.options.dryRun = false) (h : a.Sound t around p) :
    a.result.status = .untested ↔ a.BreaksOff := by
  have hstatus : a.result.status =
      (HookReport.ofSlots a.passage.slots).weigh (a.bodyStatus t.options) := by
    rw [h.result]
    rfl
  rw [hstatus, HookReport.weigh_eq_untested_iff, h.bodyStatus_eq_untested_iff hdry]
  constructor
  · rintro ⟨hclean, hbare, hskip, hproceeds⟩
    obtain ⟨s, hs, hok⟩ := List.all_eq_false.1 hproceeds
    rw [Bool.not_eq_true] at hok
    rcases s.isOk_eq_false_iff.1 hok with hfails | hstop
    · rw [hclean s (List.mem_append_left _ hs)] at hfails
      cases hfails
    · exact ⟨hbare, hskip, ⟨s, hs, hstop⟩, hclean⟩
  · rintro ⟨hbare, hskip, ⟨s, hs, hstop⟩, hclean⟩
    refine ⟨hclean, hbare, hskip, List.all_eq_false.2 ⟨s, hs, ?_⟩⟩
    rw [s.isOk_eq_false_iff.2 (.inr hstop)]
    exact Bool.false_ne_true

end AttemptAccount

namespace ScenarioAccount

/-- The attempt that counts breaks off. -/
def BreaksOff (a : ScenarioAccount) : Prop := ∃ x, a.kept = some x ∧ x.BreaksOff

variable {a : ScenarioAccount}

theorem Sound.steps_ne_untested (hdry : t.options.dryRun = false) (h : a.Sound t e around) :
    ∀ s ∈ a.result.steps, s.status ≠ .untested := by
  cases h with
  | idle p hidle => exact List.forall_mem_map.2 fun s _ => Status.noConfusion
  | tried he hselected hdiscarded hkept => exact hkept.steps_ne_untested hdry

theorem Sound.status_eq_untested_iff (hdry : t.options.dryRun = false) (h : a.Sound t e around) :
    a.result.status = .untested ↔ a.BreaksOff := by
  cases h with
  | idle p hidle => exact ⟨Status.noConfusion, fun ⟨_, hkept, _⟩ => nomatch hkept⟩
  | tried he hselected hdiscarded hkept => simpa [BreaksOff] using hkept.status_eq_untested_iff hdry

end ScenarioAccount

/-- The node is left untested exactly if everything in it is, and no slot has failed. -/
def Passage.Untests (p : Passage) (parts : List Status) (final : Status) : Prop :=
  final = .untested ↔ p.Clean ∧ parts ≠ [] ∧ ∀ s ∈ parts, s = .untested

namespace Passage

theorem untests_rollup {p : Passage} {parts : List Status} (hne : parts ≠ []) :
    p.Untests parts ((HookReport.ofSlots p.slots).weigh (.rollup parts)) := by
  rw [Untests, HookReport.weigh_eq_untested_iff, Status.rollup_eq_untested_iff]
  exact and_congr_right fun _ => (and_iff_right hne).symm

theorem untests_skipped {p : Passage} {parts : List Status} (h : ∀ s ∈ parts, s = .skipped) :
    p.Untests parts .skipped := by
  refine ⟨Status.noConfusion, ?_⟩
  rintro ⟨-, hne, hall⟩
  obtain ⟨s, hs⟩ := List.exists_mem_of_ne_nil parts hne
  have huntested := hall s hs
  rw [h s hs] at huntested
  cases huntested

end Passage

theorem RuleAccount.Sound.untests {a : RuleAccount} (h : a.Sound t e around) :
    a.passage.Untests (a.result.scenarios.map (·.status)) a.result.status := by
  cases h with
  | idle p hidle => exact Passage.untests_skipped (List.forall_mem_map.2 (p.status_skipped _))
  | @visited p start passage scenarios he hselected hvisited hplanned hinside =>
    have hne : scenarios ≠ [] := by
      rintro rfl
      rw [PlannedRule.isSelected, ← hplanned] at hselected
      cases hselected
    change passage.Untests ((scenarios.map (·.result)).map (·.status)) _
    rw [List.map_map]
    exact Passage.untests_rollup (by simpa using hne)

theorem FeatureAccount.Sound.untests {a : FeatureAccount} (h : a.Sound t e) :
    a.passage.Untests (a.result.children.map (·.status)) a.result.status := by
  cases h with
  | idle p hidle => exact Passage.untests_skipped (List.forall_mem_map.2 p.status_skipped)
  | @visited p start passage children he hselected hvisited hplanned hinside =>
    have hne : children ≠ [] := by
      rintro rfl
      rw [PlannedFeature.isSelected, PlannedFeature.scenarios, ← hplanned] at hselected
      cases hselected
    change passage.Untests ((children.map (·.result)).map (·.status)) _
    rw [List.map_map]
    exact Passage.untests_rollup (by simpa using hne)

namespace RunAccount

/-- What a run leaves untested: no step, the scenarios that break off, and the rules and features in
which nothing else lies. -/
structure Untests (a : RunAccount) : Prop where
  steps : ∀ s ∈ a.scenarios, ∀ step ∈ s.result.steps, step.status ≠ .untested
  scenarios : ∀ s ∈ a.scenarios, s.result.status = .untested ↔ s.BreaksOff
  rules : ∀ f ∈ a.features, ∀ rule, .rule rule ∈ f.children →
    rule.passage.Untests (rule.result.scenarios.map (·.status)) rule.result.status
  features : ∀ f ∈ a.features,
    f.passage.Untests (f.result.children.map (·.status)) f.result.status
  run : a.result.status = .untested ↔
    a.passage.Clean ∧ ∀ f ∈ a.result.features, f.status = .untested

variable {b : Bool} {p : Plan} {a : RunAccount}

theorem Sound.untests (hdry : t.options.dryRun = false) (h : a.Sound t b p) : a.Untests where
  steps s hs := by
    obtain ⟨e, around, hsound⟩ := h.scenario hs
    exact hsound.steps_ne_untested hdry
  scenarios s hs := by
    obtain ⟨e, around, hsound⟩ := h.scenario hs
    exact hsound.status_eq_untested_iff hdry
  rules f hf rule hrule := by
    obtain ⟨e, around, hsound⟩ := (h.inside f hf).child hrule
    exact RuleAccount.Sound.untests hsound
  features f hf := (h.inside f hf).untests
  run := by
    rw [← h.fatal_eq_none_iff, h.result]
    change runStatus (a.features.map (·.result)) a.fatal.isSome = .untested ↔
      a.fatal = none ∧ ∀ f ∈ a.features.map (·.result), f.status = .untested
    rw [← List.forall_mem_map (f := FeatureResult.status) (P := (· = .untested)),
      ← Status.rollup_eq_untested_iff]
    unfold runStatus
    cases a.fatal with
    | none => simp
    | some error =>
      simp [Status.max_error_ne_untested]

end RunAccount

/-- Nothing in the result is left untested, and the result itself is only if it has no features. -/
structure RunResult.Tested (result : RunResult) : Prop where
  steps : ∀ s ∈ result.scenarios, ∀ step ∈ s.steps, step.status ≠ .untested
  background : ∀ f ∈ result.features, ∀ step ∈ f.background, step.status ≠ .untested
  scenarios : ∀ s ∈ result.scenarios, s.status ≠ .untested
  rules : ∀ f ∈ result.features, ∀ rule ∈ f.rules, rule.status ≠ .untested
  features : ∀ f ∈ result.features, f.status ≠ .untested
  run : result.status = .untested → result.features = []

/-- A node is not left untested if one of its parts is not. -/
theorem Passage.Untests.ne_untested {p : Passage} {parts : List Status} {final : Status}
    (h : p.Untests parts final) (hparts : ∀ s ∈ parts, s ≠ .untested) : final ≠ .untested := by
  intro hfinal
  obtain ⟨-, hne, hall⟩ := h.1 hfinal
  obtain ⟨s, hs⟩ := List.exists_mem_of_ne_nil parts hne
  exact hparts s hs (hall s hs)

theorem RunAccount.Sound.tested_iff {b : Bool} {p : Plan} {a : RunAccount}
    (hdry : t.options.dryRun = false) (h : a.Sound t b p) :
    a.result.Tested ↔ ∀ s ∈ a.scenarios, ¬ s.BreaksOff := by
  have huntests := h.untests hdry
  have hscenarios : (∀ s ∈ a.result.scenarios, s.status ≠ .untested) ↔
      ∀ s ∈ a.scenarios, ¬ s.BreaksOff := by
    rw [h.scenarios_result, List.forall_mem_map]
    exact forall₂_congr fun s hs => not_congr (huntests.scenarios s hs)
  rw [← hscenarios]
  refine ⟨fun htested => htested.scenarios, fun hnone => ?_⟩
  have hinside : ∀ f ∈ a.features, ∀ c ∈ f.children, ∀ s ∈ c.result.scenarios,
      s.status ≠ .untested := by
    intro f hf c hc s hs
    refine hnone s ?_
    rw [RunResult.scenarios, scenariosOf, h.features_result]
    refine List.mem_flatMap.2 ⟨f.result, List.mem_map_of_mem hf, ?_⟩
    rw [FeatureResult.scenarios, (h.inside f hf).children_result]
    exact List.mem_flatMap.2 ⟨c.result, List.mem_map_of_mem hc, hs⟩
  have hrules : ∀ f ∈ a.features, ∀ rule, .rule rule ∈ f.children →
      rule.result.status ≠ .untested := fun f hf rule hrule =>
    (huntests.rules f hf rule hrule).ne_untested (List.forall_mem_map.2 (hinside f hf _ hrule))
  have hfeatures : ∀ f ∈ a.features, f.result.status ≠ .untested := by
    intro f hf
    refine (huntests.features f hf).ne_untested (List.forall_mem_map.2 ?_)
    rw [(h.inside f hf).children_result]
    refine List.forall_mem_map.2 fun c hc => ?_
    cases c with
    | scenario s => exact hinside f hf _ hc s.result List.mem_cons_self
    | rule rule => exact hrules f hf rule hc
  have hsteps : ∀ s ∈ a.result.scenarios, ∀ step ∈ s.steps, step.status ≠ .untested := by
    rw [h.scenarios_result]
    exact List.forall_mem_map.2 huntests.steps
  refine ⟨hsteps, ?_, hnone, ?_, ?_, fun huntested => ?_⟩
  · intro f hf step hstep
    obtain ⟨x, hx, rfl⟩ := List.mem_map.1 (h.features_result ▸ hf)
    obtain ⟨s, hs, hmem⟩ := (h.inside x hx).background hstep
    exact hsteps s (List.mem_flatMap.2 ⟨x.result, hf, hs⟩) step hmem
  · rw [h.features_result]
    refine List.forall_mem_map.2 fun f hf rule hrule => ?_
    rw [FeatureResult.rules, (h.inside f hf).children_result] at hrule
    obtain ⟨_, hmem, hresult⟩ := List.mem_filterMap.1 hrule
    obtain ⟨c, hc, rfl⟩ := List.mem_map.1 hmem
    cases c with
    | scenario s => cases hresult
    | rule x =>
      cases hresult
      exact hrules f hf x hc
  · rw [h.features_result]
    exact List.forall_mem_map.2 hfeatures
  · refine List.eq_nil_iff_forall_not_mem.2 fun f hf => ?_
    have hstatus := (huntests.run.1 huntested).2 f hf
    rw [h.features_result] at hf
    obtain ⟨x, hx, rfl⟩ := List.mem_map.1 hf
    exact hfeatures x hx hstatus

namespace Runner

variable {r : Runner W} {suite : Suite} {world : W} {cancelled : Bool} {xs : List (Turn W)}
  {e : Ended W}

/-- However a run goes that is not a dry one, no step is left untested, and a scenario is only if it
breaks off; so nothing is, unless some scenario breaks off. -/
theorem untested_exactly (hdry : r.options.dryRun = false)
    (h : r.Goes suite world cancelled xs e) :
    ∃ (k : Company) (a : RunAccount),
      a.Sound ⟨r.options, k, e.stage.isStopped⟩ cancelled (r.options.plan suite) ∧
      e.report? = some a.result ∧ a.Unfolds (xs.filterMap (·.cue? r)) ∧ a.Untests ∧
      (a.result.Tested ↔ ∀ s ∈ a.scenarios, ¬ s.BreaksOff) := by
  obtain ⟨k, a, ha, hresult, hunfolds⟩ := h.exists_account
  exact ⟨k, a, ha, Ended.report?_eq hresult, hunfolds, ha.untests hdry, ha.tested_iff hdry⟩

/-- A scenario of a rule that breaks off after one that does not. -/
theorem untested_exactly_rule :
    let hooks : Hooks Unit := Hooks.none.register .beforeScenario fun e =>
      .done (if e.name = "second" then .error "enough" true else .ok)
    let r := ofHooks hooks
    let rule := { Rule.named "rule" with children := [.scenario (.named "second")] }
    let suite : Suite := ⟨[{ Feature.named "feature" with
      children := [.definition (.scenario (.named "first")), .rule rule] }]⟩
    r.options.dryRun = false ∧ suite.violation? = none ∧ ∃ a : RunAccount,
      (r.run suite () false).report? = some a.result ∧ a.Untests ∧
      (∃ s ∈ a.scenarios, s.BreaksOff) ∧
      a.result.features.map (·.rules.map (·.status)) = [[.untested]] ∧
      a.result.features.map (·.status) = [.passed] := by
  intro hooks r rule suite
  have hvalid : suite.violation? = none := by decide
  obtain ⟨k, a, ha, hreport, -, huntests, htested⟩ :=
    untested_exactly rfl (.inOrder hvalid : r.Goes suite () false _ _)
  have hstatuses : (r.run suite () false).report?.map (fun result =>
      (result.features.map (·.rules.map (·.status)), result.features.map (·.status))) =
        some ([[.untested]], [.passed]) := by decide
  have hscenario : (r.run suite () false).report?.map (fun result =>
      result.scenarios.any (·.status == .untested)) = some true := by decide
  rw [hreport, Option.map_some, Option.some.injEq] at hstatuses hscenario
  refine ⟨rfl, hvalid, a, hreport, huntests, ?_, Prod.mk.inj hstatuses⟩
  rw [ha.scenarios_result, List.any_map] at hscenario
  obtain ⟨s, hs, huntested⟩ := List.any_eq_true.1 hscenario
  exact ⟨s, hs, (huntests.scenarios s hs).1 (beq_iff_eq.1 huntested)⟩

/-- A slot before a scenario without steps asks that the run be stopped, and the scenario, its
feature and the run are left untested. -/
theorem stop_before_bare_scenario :
    let r := ofHooks (Hooks.none.register .beforeScenario fun _ => .done (.error "enough" true))
    let suite := Suite.single (.named "scenario")
    r.options.dryRun = false ∧ suite.violation? = none ∧ ∃ result,
      (r.run suite () false).report? = some result ∧ result.features ≠ [] ∧ ¬ result.Tested := by
  intro r suite
  have hstatus : (r.run suite () false).report?.any (fun result =>
      result.status == .untested && !result.features.isEmpty) = true := by decide
  obtain ⟨result, hresult, hstatus⟩ := (Option.any_eq_true _ _).1 hstatus
  simp only [Bool.and_eq_true, beq_iff_eq, Bool.not_eq_true', List.isEmpty_eq_false_iff] at hstatus
  obtain ⟨huntested, hfeatures⟩ := hstatus
  exact ⟨rfl, by decide, result, hresult, hfeatures, fun htested =>
    hfeatures (htested.run huntested)⟩

end Runner

end Rehearsal
