import Rehearsal.Proofs.Account

/-!
# Accounts and the tree of results

The results in a sound account are those in its result, node by node and in the same order,
and every scenario in it goes as scenarios go. The cues of a node are cues of the node around it.
-/

namespace Rehearsal

theorem PlannedScenario.untouched_skipped (backgrounds : List Background) (p : PlannedScenario) :
    (p.skipped backgrounds).attempts = 0 ∧ (p.skipped backgrounds).status = .skipped ∧
      ∀ s ∈ (p.skipped backgrounds).steps, s.status = .skipped := by
  refine ⟨rfl, rfl, fun s hs => ?_⟩
  obtain ⟨listed, -, rfl⟩ := List.mem_map.1 hs
  rfl

/-- All there is in a skipped feature are skipped scenarios. -/
theorem PlannedFeature.exists_of_mem_skipped {p : PlannedFeature} {s : ScenarioResult}
    (hs : s ∈ p.skipped.scenarios) :
    ∃ backgrounds q, s = PlannedScenario.skipped backgrounds q := by
  obtain ⟨c, hc, hs⟩ := List.mem_flatMap.1 hs
  obtain ⟨q, -, rfl⟩ := List.mem_map.1 hc
  cases q with
  | scenario q => exact ⟨_, q, List.mem_singleton.1 hs⟩
  | rule q =>
    obtain ⟨q', -, rfl⟩ := List.mem_map.1 hs
    exact ⟨_, q', rfl⟩

variable {t : Terms} {e : Bool} {around : List Background}

/-- A selected node is started if the node around it was entered and the run was not stopped. -/
theorem Terms.not_idle (hstopped : t.stopped = false) {selected : Bool}
    (hselected : selected = true) (he : e = true) :
    ¬(selected = false ∨ t.stopped = true ∨ e = false) := by
  simp [hstopped, hselected, he]

namespace StepAccount

theorem find_mem_cues {a : StepAccount} {f : FindCue} : .find f ∈ a.cues ↔ f ∈ a.start := by
  simp [cues, Passage.find_mem_around]

theorem call_mem_cues {a : StepAccount} {call : CallCue} :
    .call call ∈ a.cues ↔ call ∈ a.call := by
  simp [cues, Passage.mem_around, eq_comm]

theorem slot_mem_cues {a : StepAccount} {s : SlotCue} :
    .slot s ∈ a.cues ↔ s ∈ a.passage.slots := by
  simp [cues, Passage.mem_around]

theorem Started.isSome_start {a : StepAccount} (h : a.Started t) : a.start.isSome = true := by
  cases h <;> rfl

theorem started_or_idle_of_map {ss : List (Step × Bool)} :
    ∀ a ∈ ss.map idle, a.Started t ∨ ∃ s, a = idle s :=
  List.forall_mem_map.2 fun s _ => .inr ⟨s, rfl⟩

/-- Steps in sequence are started or left alone. -/
theorem Sequel.started_or_idle {c : Bool} {as : List StepAccount} (h : Sequel t c as) :
    ∀ a ∈ as, a.Started t ∨ ∃ s, a = idle s := by
  induction h with
  | nil => simp
  | stopped rest hstop => exact started_or_idle_of_map
  | halted rest hstart hhalt =>
    exact List.forall_mem_cons.2 ⟨.inl hstart, started_or_idle_of_map⟩
  | further hstart hhalt hrest ih => exact List.forall_mem_cons.2 ⟨.inl hstart, ih⟩

end StepAccount

namespace AttemptAccount

variable {p : PlannedScenario} {a : AttemptAccount}

theorem Sound.steps_result (h : a.Sound t around p) : a.result.steps = a.steps.map (·.result) := by
  rw [h.result]
  rfl

/-- The steps of an attempt are in sequence or not started at all. -/
theorem Sound.steps_cases (h : a.Sound t around p) :
    (a.passage.proceeds = true ∧ a.control.skipReason = none ∧
      StepAccount.Sequel t a.control.continueAfterFailure a.steps) ∨
    ((a.passage.proceeds = false ∨ a.control.skipReason ≠ none) ∧
      a.steps = (p.scenario.listedSteps around).map .idle) := by
  cases hproceeds : a.passage.proceeds with
  | false => exact .inr ⟨.inl rfl, h.barred (.inl hproceeds)⟩
  | true =>
    by_cases hskip : a.control.skipReason = none
    · exact .inl ⟨rfl, hskip, h.sequel hproceeds hskip⟩
    · exact .inr ⟨.inr hskip, h.barred (.inr hskip)⟩

theorem Sound.started_or_idle (h : a.Sound t around p) :
    ∀ s ∈ a.steps, s.Started t ∨ ∃ listed, s = .idle listed := by
  rcases h.steps_cases with ⟨-, -, hsequel⟩ | ⟨-, hidle⟩
  · exact hsequel.started_or_idle
  · rw [hidle]
    exact StepAccount.started_or_idle_of_map

/-- Steps that were not started are skipped. -/
theorem Sound.skipped (h : a.Sound t around p) :
    ∀ s ∈ a.steps, s.start = none → s.result = .skipped s.step s.background := by
  intro s hs hnone
  rcases h.started_or_idle s hs with hstart | ⟨listed, rfl⟩
  · have hsome := hstart.isSome_start
    rw [hnone] at hsome
    cases hsome
  · rfl

theorem sublist_cues {s : StepAccount} (hs : s ∈ a.steps) : s.cues.Sublist a.cues :=
  .cons _ ((List.sublist_flatten_of_mem (List.mem_map_of_mem hs)).trans
    (a.passage.sublist_around _))

end AttemptAccount

namespace ScenarioAccount

theorem sublist_cues {a : ScenarioAccount} {x : AttemptAccount} (hx : x ∈ a.attempts) :
    x.cues.Sublist a.cues :=
  List.sublist_flatten_of_mem (List.mem_map_of_mem hx)

/-- Every attempt, whether it counts or not, goes as attempts go. -/
theorem Sound.attempt {a : ScenarioAccount} (h : a.Sound t e around) {x : AttemptAccount}
    (hx : x ∈ a.attempts) : x.Sound t around a.planned := by
  cases h with
  | idle p hidle => cases hx
  | tried he hselected hdiscarded hkept hbound hend =>
    rcases List.mem_append.1 hx with hx | hx
    · exact (hdiscarded x hx).1
    · obtain rfl := List.mem_singleton.1 hx
      exact hkept

/-- A scenario that was not started is skipped with all its steps. -/
theorem Sound.untouched {a : ScenarioAccount} (h : a.Sound t e around) (hnone : a.attempts = []) :
    a.result.attempts = 0 ∧ a.result.status = .skipped ∧
      ∀ s ∈ a.result.steps, s.status = .skipped := by
  cases h with
  | idle p hidle => exact p.untouched_skipped _
  | tried => simp [attempts] at hnone

/-- The result of a scenario that was started is that of its last attempt, with the number of
attempts. -/
theorem Sound.kept {a : ScenarioAccount} (h : a.Sound t e around) {x : AttemptAccount}
    (hkept : a.kept = some x) :
    x.Sound t around a.planned ∧ a.result = { x.result with attempts := a.attempts.length } := by
  cases h with
  | idle p hidle => cases hkept
  | tried he hselected hdiscarded hsound hbound hend =>
    cases hkept
    exact ⟨hsound, by simp [attempts]⟩

end ScenarioAccount

namespace RuleAccount

theorem Sound.scenarios_result {a : RuleAccount} (h : a.Sound t e around) :
    a.result.scenarios = a.scenarios.map (·.result) := by
  cases h with
  | idle p hidle =>
    change p.scenarios.map _ = (p.scenarios.map _).map _
    rw [List.map_map]
    rfl
  | visited => rfl

theorem Sound.scenario {a : RuleAccount} (h : a.Sound t e around) {s : ScenarioAccount}
    (hs : s ∈ a.scenarios) :
    ∃ (e : Bool) (backgrounds : List Background), s.Sound t e backgrounds := by
  cases h with
  | idle p hidle =>
    obtain ⟨q, -, rfl⟩ := List.mem_map.1 hs
    exact ⟨false, _, .idle q (.inr (.inr rfl))⟩
  | visited he hselected hvisited hplanned hinside => exact ⟨_, _, hinside s hs⟩

theorem sublist_cues {a : RuleAccount} {s : ScenarioAccount} (hs : s ∈ a.scenarios) :
    s.cues.Sublist a.cues :=
  ((List.sublist_flatten_of_mem (List.mem_map_of_mem hs)).trans
    (a.passage.sublist_around _)).trans (List.sublist_append_right _ _)

end RuleAccount

namespace ChildAccount

theorem scenarios_result {a : ChildAccount} (h : a.Sound t e around) :
    a.result.scenarios = a.scenarios.map (·.result) := by
  cases a with
  | scenario s => rfl
  | rule r => exact RuleAccount.Sound.scenarios_result h

theorem scenario_of_sound {a : ChildAccount} (h : a.Sound t e around) {s : ScenarioAccount}
    (hs : s ∈ a.scenarios) :
    ∃ (e : Bool) (backgrounds : List Background), s.Sound t e backgrounds := by
  cases a with
  | scenario s' =>
    rw [scenarios, List.mem_singleton] at hs
    rw [hs]
    exact ⟨e, around, h⟩
  | rule r => exact RuleAccount.Sound.scenario h hs

/-- A child of a feature that was not started goes as one in a node that was not entered. -/
theorem sound_idle (t : Terms) (around : List Background) (p : PlannedChild) :
    ∃ around', (idle around p).Sound t false around' := by
  cases p with
  | scenario p => exact ⟨around, .idle p (.inr (.inr rfl))⟩
  | rule p => exact ⟨p.backgrounds around, .idle p (.inr (.inr rfl))⟩

theorem result_idle (around : List Background) (p : PlannedChild) :
    (idle around p).result = p.skipped around := by
  cases p <;> rfl

theorem sublist_cues {a : ChildAccount} {s : ScenarioAccount} (hs : s ∈ a.scenarios) :
    s.cues.Sublist a.cues := by
  cases a with
  | scenario s' =>
    obtain rfl := List.mem_singleton.1 hs
    exact .refl _
  | rule r => exact RuleAccount.sublist_cues hs

end ChildAccount

theorem mem_backgroundOf {scenarios : List ScenarioResult} {s : StepResult}
    (h : s ∈ backgroundOf scenarios) : ∃ x ∈ scenarios, s ∈ x.steps := by
  unfold backgroundOf at h
  split at h
  · rename_i x hfind
    exact ⟨x, List.mem_of_find?_eq_some hfind, (List.mem_filter.1 h).1⟩
  · cases h

namespace FeatureAccount

theorem Sound.child {a : FeatureAccount} (h : a.Sound t e) {c : ChildAccount}
    (hc : c ∈ a.children) : ∃ (e : Bool) (around : List Background), c.Sound t e around := by
  cases h with
  | idle p hidle =>
    obtain ⟨q, -, rfl⟩ := List.mem_map.1 hc
    obtain ⟨around, hsound⟩ := ChildAccount.sound_idle t p.feature.backgrounds q
    exact ⟨false, around, hsound⟩
  | visited he hselected hvisited hplanned hinside => exact ⟨_, _, hinside c hc⟩

theorem Sound.children_result {a : FeatureAccount} (h : a.Sound t e) :
    a.result.children = a.children.map (·.result) := by
  cases h with
  | idle p hidle =>
    change p.children.map _ = (p.children.map _).map _
    rw [List.map_map]
    exact List.map_congr_left fun c _ => (ChildAccount.result_idle _ c).symm
  | visited => rfl

theorem Sound.scenarios_result {a : FeatureAccount} (h : a.Sound t e) :
    a.result.scenarios = a.scenarios.map (·.result) := by
  rw [FeatureResult.scenarios, h.children_result, List.flatMap_map, scenarios, List.map_flatMap]
  refine congrArg List.flatten (List.map_congr_left fun c hc => ?_)
  obtain ⟨e, around, hsound⟩ := h.child hc
  exact ChildAccount.scenarios_result hsound

theorem Sound.scenario {a : FeatureAccount} (h : a.Sound t e) {s : ScenarioAccount}
    (hs : s ∈ a.scenarios) :
    ∃ (e : Bool) (backgrounds : List Background), s.Sound t e backgrounds := by
  obtain ⟨c, hc, hmem⟩ := List.mem_flatMap.1 hs
  obtain ⟨e, around, hsound⟩ := h.child hc
  exact ChildAccount.scenario_of_sound hsound hmem

/-- What a feature shows as its background are steps of its scenarios. -/
theorem Sound.background {a : FeatureAccount} (h : a.Sound t e) {s : StepResult}
    (hs : s ∈ a.result.background) : ∃ x ∈ a.result.scenarios, s ∈ x.steps := by
  cases h with
  | idle p hidle => cases hs
  | visited => exact mem_backgroundOf hs

theorem child_sublist_cues {a : FeatureAccount} {c : ChildAccount} (hc : c ∈ a.children) :
    c.cues.Sublist a.cues :=
  ((List.sublist_flatten_of_mem (List.mem_map_of_mem hc)).trans
    (a.passage.sublist_around _)).trans (List.sublist_append_right _ _)

theorem sublist_cues {a : FeatureAccount} {s : ScenarioAccount} (hs : s ∈ a.scenarios) :
    s.cues.Sublist a.cues := by
  obtain ⟨c, hc, hmem⟩ := List.mem_flatMap.1 hs
  exact (ChildAccount.sublist_cues hmem).trans (child_sublist_cues hc)

end FeatureAccount

namespace RunAccount

variable {b : Bool} {p : Plan} {a : RunAccount}

theorem Sound.features_result (h : a.Sound t b p) :
    a.result.features = a.features.map (·.result) := by
  rw [h.result]
  rfl

/-- The scenarios of a result are those of the account, in order. -/
theorem Sound.scenarios_result (h : a.Sound t b p) :
    a.result.scenarios = a.scenarios.map (·.result) := by
  rw [RunResult.scenarios, scenariosOf, h.features_result, List.flatMap_map, scenarios,
    List.map_flatMap]
  exact congrArg List.flatten (List.map_congr_left fun f hf => (h.inside f hf).scenarios_result)

theorem Sound.scenario (h : a.Sound t b p) {s : ScenarioAccount} (hs : s ∈ a.scenarios) :
    ∃ (e : Bool) (backgrounds : List Background), s.Sound t e backgrounds := by
  obtain ⟨f, hf, hmem⟩ := List.mem_flatMap.1 hs
  exact (h.inside f hf).scenario hmem

end RunAccount

end Rehearsal
