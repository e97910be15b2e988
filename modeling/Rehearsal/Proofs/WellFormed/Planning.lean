import Mathlib
import Rehearsal.Proofs.Account.Moves
import Rehearsal.Proofs.WellFormed.Filling

/-!
# Runs over well-formed suites

The scenarios in the plan of a well-formed feature are what its definitions contribute, one feature
after the other and whatever the options say. All that a run looks up comes from the plan or from
the backgrounds around a place of it, so that no step without a type is ever looked up.
-/

namespace Rehearsal

/-! ### Where the looked-up steps come from -/

theorem AttemptAccount.find_mem_cues {a : AttemptAccount} {f : FindCue} :
    .find f ∈ a.cues ↔ ∃ s ∈ a.steps, f ∈ s.start := by
  simp [cues, Passage.find_mem_around, StepAccount.find_mem_cues]

/-- Some step of some attempt is started with the lookup. -/
def ScenarioAccount.LooksUp (a : ScenarioAccount) (f : FindCue) : Prop :=
  ∃ x ∈ a.attempts, ∃ s ∈ x.steps, f ∈ s.start

theorem ScenarioAccount.find_mem_cues {a : ScenarioAccount} {f : FindCue} :
    .find f ∈ a.cues ↔ a.LooksUp f := by
  simp [cues, LooksUp, AttemptAccount.find_mem_cues]

theorem ChildAccount.find_mem_cues {a : ChildAccount} {f : FindCue} :
    .find f ∈ a.cues ↔ ∃ s ∈ a.scenarios, s.LooksUp f := by
  cases a with
  | scenario s => simp [cues, scenarios, ScenarioAccount.find_mem_cues]
  | rule r =>
    simp [cues, scenarios, RuleAccount.cues, Passage.find_mem_around, ScenarioAccount.find_mem_cues]

theorem exists_mem_flatMap {xs : List α} {f : α → List β} {P : β → Prop} :
    (∃ y ∈ xs.flatMap f, P y) ↔ ∃ x ∈ xs, ∃ y ∈ f x, P y := by
  simp only [List.mem_flatMap]
  constructor
  · rintro ⟨y, ⟨x, hx, hy⟩, h⟩
    exact ⟨x, hx, y, hy, h⟩
  · rintro ⟨x, hx, y, hy, h⟩
    exact ⟨y, ⟨x, hx, hy⟩, h⟩

theorem FeatureAccount.find_mem_cues {a : FeatureAccount} {f : FindCue} :
    .find f ∈ a.cues ↔ ∃ s ∈ a.scenarios, s.LooksUp f := by
  rw [scenarios, exists_mem_flatMap]
  simp [cues, Passage.find_mem_around, ChildAccount.find_mem_cues]

theorem RunAccount.find_mem_cues {a : RunAccount} {f : FindCue} :
    .find f ∈ a.cues ↔ ∃ s ∈ a.scenarios, s.LooksUp f := by
  rw [scenarios, exists_mem_flatMap]
  simp [cues, Passage.find_mem_around, FeatureAccount.find_mem_cues]

variable {t : Terms}

theorem StepAccount.Started.step_of_start {a : StepAccount} (h : a.Started t) {f : FindCue}
    (hf : f ∈ a.start) : f.step = a.step := by
  cases h <;> (cases hf; rfl)

/-- A scenario looks up steps of the document only: those of its place and of the backgrounds
there. -/
theorem ScenarioAccount.Stands.mem_listedSteps {o : RunOptions} {x : Feature × ScenarioPlace}
    {a : ScenarioAccount} (h : a.Stands t o x) {f : FindCue} (hf : a.LooksUp f) :
    ∃ barred background, (f.step, background) ∈
      x.2.scenario.listedSteps (x.1.backgroundsAt barred x.2.rule) := by
  obtain ⟨hplanned, entered, barred, -, hsound⟩ := h
  obtain ⟨attempt, hattempt, s, hs, hstart⟩ := hf
  have hgoes := hsound.attempt hattempt
  have hlisted : s.listed ∈ attempt.steps.map (·.listed) := List.mem_map_of_mem hs
  rw [hgoes.listed, hplanned] at hlisted
  rcases hgoes.started_or_idle s hs with hstarted | ⟨listed, rfl⟩
  · rw [StepAccount.listed, ← hstarted.step_of_start hstart] at hlisted
    exact ⟨barred, s.background, hlisted⟩
  · cases hstart

theorem exists_of_forall₂_right {R : α → β → Prop} {xs : List α} {ys : List β}
    (h : List.Forall₂ R xs ys) {y : β} (hy : y ∈ ys) : ∃ x ∈ xs, R x y := by
  obtain ⟨i, hi, rfl⟩ := List.getElem_of_mem hy
  have hlt : i < xs.length := h.length_eq ▸ hi
  exact ⟨xs[i], List.getElem_mem hlt, h.get hlt hi⟩

/-- What a run by the plan of the suite looks up stands in a document of the suite. -/
theorem RunAccount.Sound.find_listed {o : RunOptions} {suite : Suite} {b : Bool} {a : RunAccount}
    (h : a.Sound t b (o.plan suite)) {f : FindCue} (hf : .find f ∈ a.cues) :
    ∃ x ∈ suite.places, ∃ barred background, (f.step, background) ∈
      x.2.scenario.listedSteps (x.1.backgroundsAt barred x.2.rule) := by
  obtain ⟨s, hs, hlook⟩ := RunAccount.find_mem_cues.1 hf
  obtain ⟨x, hx, hstands⟩ := exists_of_forall₂_right h.forall₂_places hs
  exact ⟨x, hx, hstands.mem_listedSteps hlook⟩

/-! ### Well-formed suites -/

theorem Definition.mem_rule_of_places {rule : Option Rule} {d : Definition} {p : ScenarioPlace}
    (hp : p ∈ d.places rule) : p.rule = rule := by
  cases d with
  | scenario s =>
    obtain rfl := List.mem_singleton.1 hp
    rfl
  | outline o =>
    obtain ⟨ps, hps, hmem⟩ := List.mem_flatten.1 hp
    obtain ⟨block, hblock, rfl⟩ := List.mem_mapIdx.1 hps
    obtain ⟨s, -, rfl⟩ := List.mem_map.1 hmem
    rfl

/-- The rules around places are rules of the document. -/
theorem Feature.rule_of_mem_places {f : Feature} {p : ScenarioPlace} (hp : p ∈ f.places)
    {r : Rule} (hr : p.rule = some r) : .rule r ∈ f.children := by
  obtain ⟨c, hc, hmem⟩ := List.mem_flatMap.1 hp
  cases c with
  | definition d =>
    rw [Definition.mem_rule_of_places hmem] at hr
    cases hr
  | rule r' =>
    obtain ⟨d, -, hd⟩ := List.mem_flatMap.1 hmem
    rw [Definition.mem_rule_of_places hd] at hr
    obtain rfl := Option.some.inj hr
    exact hc

namespace Feature.WellFormed

variable {f : Feature} (h : f.WellFormed)
include h

theorem backgrounds {p : ScenarioPlace} (hp : p ∈ f.places) {barred : Bool} {b : Background}
    (hb : b ∈ f.backgroundsAt barred p.rule) {s : Step} (hs : s ∈ b.steps) : s.WellFormed := by
  rw [backgroundsAt, List.mem_append] at hb
  rcases hb with hb | hb
  · exact h.step (.background (Option.mem_toList.1 hb) hs)
  · split at hb
    · cases hb
    · obtain ⟨r, hr, hbackground⟩ := Option.bind_eq_some_iff.1 (Option.mem_toList.1 hb)
      exact h.step (.ruleBackground (rule_of_mem_places hp hr) hbackground hs)

theorem listedSteps {p : ScenarioPlace} (hp : p ∈ f.places) {barred : Bool} {s : Step × Bool}
    (hs : s ∈ p.scenario.listedSteps (f.backgroundsAt barred p.rule)) : s.1.WellFormed := by
  rcases List.mem_append.1 hs with hs | hs
  · obtain ⟨step, hstep, rfl⟩ := List.mem_map.1 hs
    obtain ⟨b, hb, hmem⟩ := List.mem_flatMap.1 hstep
    exact h.backgrounds hp hb hmem
  · obtain ⟨step, hstep, rfl⟩ := List.mem_map.1 hs
    exact h.stepsAt hp step hstep

end Feature.WellFormed

/-- The planned scenarios are what the definitions of the feature contribute, and their steps are
well-formed. -/
structure PlannedFeature.Serves (f : Feature) (p : PlannedFeature) : Prop where
  feature : p.feature = f
  steps : ∀ s ∈ p.scenarios, ∀ step ∈ s.scenario.steps, step.WellFormed
  yields : ∃ contributions, List.Forall₂ Definition.Yields f.definitions contributions ∧
    p.scenarios.map (·.scenario) = contributions.flatten

theorem Feature.WellFormed.serves {f : Feature} (h : f.WellFormed) (o : RunOptions) :
    (o.planFeature f).Serves f where
  feature := rfl
  steps := by
    rw [o.scenarios_planFeature]
    exact List.forall_mem_map.2 fun p hp => h.stepsAt hp
  yields := by
    refine ⟨f.definitions.map Definition.scenarios, ?_, ?_⟩
    · rw [List.forall₂_map_right_iff, List.forall₂_same]
      exact fun d hd => h.yields ((f.mem_definitions_iff d).1 hd)
    · rw [o.scenarios_planFeature, List.map_map, ← List.flatMap_def, ← f.map_scenario_places]
      rfl

namespace Suite

theorem wellFormed_of_violation? {suite : Suite} (hvalid : suite.violation? = none) :
    ∀ f ∈ suite.features, f.WellFormed := by
  rw [violation?, firstViolation_eq_none_iff] at hvalid
  exact fun f hf => f.violation?_eq_none_iff.1 (hvalid f hf)

/-- Whatever the options, the plan of a suite that passes the check holds what the definitions of
its features contribute, with well-formed steps: each outline contributes a scenario for each of its
rows and one at least, and in its steps every hole is replaced by a cell of the row. No run over the
suite, in order or through moves, ever looks up a step without a type. -/
theorem plan_keeps_well_formed (suite : Suite) (hvalid : suite.violation? = none) :
    (∀ o : RunOptions,
      List.Forall₂ (fun f p => p.Serves f) suite.features (o.plan suite).features) ∧
    ∀ {W : Type} (r : Runner W) (world : W) (cancelled : Bool) (xs : List (Turn W)) (e : Ended W),
      r.Goes suite world cancelled xs e →
      ∀ x ∈ xs, ∀ step, x.request = .find step → step.stepType.isSome = true := by
  have hfeatures := wellFormed_of_violation? hvalid
  constructor
  · intro o
    rw [RunOptions.plan, List.forall₂_map_right_iff, List.forall₂_same]
    exact fun f hf => (hfeatures f hf).serves o
  · rintro W r world cancelled xs e hgoes ⟨stage, request⟩ hx step rfl
    obtain ⟨k, a, ha, -, hunfolds⟩ := hgoes.exists_account
    let cue : FindCue := ⟨step, (r.answer stage (.find step)).2, stage.isStopped⟩
    have hcue : .find cue ∈ xs.filterMap (·.cue? r) := List.mem_filterMap.2 ⟨_, hx, rfl⟩
    obtain ⟨y, hy, barred, background, hlisted⟩ := ha.find_listed (hunfolds.perm.mem_iff.2 hcue)
    obtain ⟨f, hf, hplace⟩ := List.mem_flatMap.1 hy
    obtain ⟨p, hp, rfl⟩ := List.mem_map.1 hplace
    exact ((hfeatures f hf).listedSteps hp hlisted).typed

/-- An outline in a rule with two rows, one of which puts a hole in the place of the hole. -/
theorem plan_keeps_well_formed_rule :
    let outline := { Outline.named "doors" with
      steps := [.ofClass .context "a <n> door"]
      examples := [.ofTable ⟨["n"], [⟨["red"], 5⟩, ⟨["<n>"], 6⟩], 4⟩] }
    let rule := { Rule.named "rule" with children := [.outline outline] }
    let suite : Suite := ⟨[{ Feature.named "feature" with children := [.rule rule] }]⟩
    let r := Runner.ofHooks .none
    suite.violation? = none ∧
      outline.expand.map (fun s => s.steps.map (·.text)) = [["a red door"], ["a <n> door"]] ∧
      List.Forall₂ (fun f p => p.Serves f) suite.features (r.options.plan suite).features ∧
      ∀ x ∈ r.trail (r.options.runPlan (r.options.plan suite)) (.start () false),
        ∀ step, x.request = .find step → step.stepType.isSome = true := by
  intro outline rule suite r
  have hvalid : suite.violation? = none := by cbv
  obtain ⟨hplan, hfind⟩ := plan_keeps_well_formed suite hvalid
  exact ⟨hvalid, by cbv, hplan r.options, hfind r () false _ _ (.inOrder hvalid)⟩

end Suite

end Rehearsal
