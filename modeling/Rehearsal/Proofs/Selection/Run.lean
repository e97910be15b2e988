import Rehearsal.Proofs.Account.Crew
import Rehearsal.Proofs.Selection

/-!
# What a run executes

In a run that was not stopped and whose opening has not failed, the scenarios that are executed
are those that the configuration selects and that the slots around them let through. Nothing is
called for the others, nor for features and rules in which nothing is selected.
-/

namespace Rehearsal

variable {t : Terms} {e : Bool} {backgrounds : List Background}

namespace ScenarioAccount

/-- In a run that was not stopped a scenario is executed if it is selected and the nodes around it
were entered. -/
theorem Sound.executed_iff {a : ScenarioAccount} (h : a.Sound t e backgrounds)
    (hstopped : t.stopped = false) :
    1 ≤ a.result.attempts ↔ a.planned.selected = true ∧ e = true := by
  cases h with
  | idle p hidle =>
    have hzero : (ScenarioAccount.idle backgrounds p).result.attempts = 0 := rfl
    rw [hzero]
    exact ⟨fun hone => absurd hone (by decide), fun ⟨hselected, he⟩ =>
      absurd hidle (Terms.not_idle hstopped hselected he)⟩
  | tried he hselected hdiscarded hkept hbound hend =>
    exact ⟨fun _ => ⟨hselected, he⟩, fun _ => Nat.le_add_left 1 _⟩

theorem Sound.skipped_of_attempts {a : ScenarioAccount} (h : a.Sound t e backgrounds)
    (hzero : a.result.attempts = 0) : a.result.status = .skipped ∧ a.cues = [] := by
  cases h with
  | idle p hidle => exact ⟨rfl, rfl⟩
  | tried he hselected hdiscarded hkept hbound hend => exact absurd hzero (Nat.succ_ne_zero _)

end ScenarioAccount

/-- No cue is given for a rule without selected scenarios. -/
theorem RuleAccount.Sound.cues_eq_nil {a : RuleAccount} (h : a.Sound t e backgrounds)
    (hnone : a.planned.isSelected = false) : a.cues = [] := by
  cases h with
  | idle p hidle => exact (Work.idle_rule _ p).2.2
  | visited he hselected hvisited hplanned hinside =>
    exact absurd (hnone.symm.trans hselected) Bool.false_ne_true

/-- No cue is given for a feature without selected scenarios. -/
theorem FeatureAccount.Sound.cues_eq_nil {a : FeatureAccount} (h : a.Sound t e)
    (hnone : a.planned.isSelected = false) : a.cues = [] := by
  cases h with
  | idle p hidle => exact (Work.idle_feature p).2.2
  | visited he hselected hvisited hplanned hinside =>
    exact absurd (hnone.symm.trans hselected) Bool.false_ne_true

theorem FeatureAccount.Sound.children_planned {a : FeatureAccount} (h : a.Sound t e) :
    a.children.map (·.planned) = a.planned.children := by
  cases h with
  | idle p hidle => exact (Work.each_idle (Work.idle_child _) p.children).1
  | visited he hselected hvisited hplanned hinside => exact hplanned

/-- The rules in the plan of a document: their scenarios are at the places of the rule. -/
theorem RunOptions.exists_place_of_rule {o : RunOptions} {f : Feature} {r : PlannedRule}
    (hr : .rule r ∈ (o.planFeature f).children) {s : PlannedScenario} (hs : s ∈ r.scenarios) :
    ∃ p ∈ f.places, p.rule = some r.rule ∧ s = o.planAt f p := by
  have hmem : (some r.rule, s) ∈ (o.planFeature f).children.flatMap (·.places) :=
    List.mem_flatMap.2 ⟨_, hr, List.mem_map_of_mem hs⟩
  rw [o.places_planFeature] at hmem
  obtain ⟨p, hp, heq⟩ := List.mem_map.1 hmem
  obtain ⟨hrule, hscenario⟩ := Prod.mk.inj heq
  exact ⟨p, hp, hrule, hscenario.symm⟩

/-- The slots of the opening are those before everything. -/
theorem RunAccount.Sound.proceeds {b : Bool} {p : Plan} {a : RunAccount} (h : a.Sound t b p)
    (hopens : ∀ s, .slot s ∈ a.cues → s.event.point = .beforeAll → s.isOk = true) :
    a.passage.proceeds = true := by
  refine List.all_eq_true.2 fun s hs => hopens s ?_ ?_
  · exact List.mem_cons_of_mem _
      (Passage.mem_around.2 (.inl ⟨s, List.mem_append_left _ hs, rfl⟩))
  · have hevent := h.visited.crosses.entry.subset (List.mem_map_of_mem hs)
    have hentry : t.options.entry .suite = t.options.called [⟨.beforeAll, .suite, none⟩] := rfl
    rw [hentry, RunOptions.called] at hevent
    split at hevent
    · cases hevent
    · rw [List.mem_singleton.1 hevent]

namespace RunConfig

/-- The account `q` of a place shows that its scenario was executed if the configuration selects
it and the nodes around it were entered, and that nothing was called for it otherwise. -/
structure Settles (c : RunConfig) (f : Feature) (x : FeatureAccount) (p : ScenarioPlace)
    (q : PlaceAccount) : Prop where
  rule : q.rule.map (·.planned.rule) = p.rule
  scenario : q.scenario.planned.scenario = p.scenario
  executed : 1 ≤ q.scenario.result.attempts ↔
    c.Selects f p ∧ x.passage.proceeds = true ∧ ∀ r ∈ q.rule, r.passage.proceeds = true
  skipped : q.scenario.result.attempts = 0 →
    q.scenario.result.status = .skipped ∧ q.scenario.cues = []

/-- The account of a feature shows this for all places, and that nothing was called for nodes
without selected scenarios. -/
structure SettlesAll (c : RunConfig) (f : Feature) (x : FeatureAccount) : Prop where
  places : List.Forall₂ (c.Settles f x) f.places x.places
  feature : (∀ p ∈ f.places, ¬ c.Selects f p) → x.cues = []
  rules : ∀ r, .rule r ∈ x.children →
    (∀ p ∈ f.places, p.rule = some r.planned.rule → ¬ c.Selects f p) → r.cues = []

theorem settles_place {c : RunConfig} {processors : Nat} (hstopped : t.stopped = false)
    (hcompile : c.compile processors = .ok t.options) {f : Feature} {x : FeatureAccount}
    (hx : x.Sound t true) {p : ScenarioPlace} (hp : p ∈ f.places) {q : PlaceAccount}
    (hq : q ∈ x.places)
    (hrule : q.rule.map (·.planned.rule) = p.rule)
    (hplanned : q.scenario.planned = t.options.planAt f p) : c.Settles f x p q where
  rule := hrule
  scenario := congrArg PlannedScenario.scenario hplanned
  executed := by
    rw [(hx.place hq).executed_iff hstopped, hplanned, selected_iff hcompile hp]
    refine and_congr_right fun hselects => ?_
    have hselected : q.scenario.planned.selected = true := by
      rw [hplanned, selected_iff hcompile hp]
      exact hselects
    rw [hx.enters_eq hstopped hq hselected, Bool.and_eq_true, Option.all_eq_true]
    rfl
  skipped := (hx.place hq).skipped_of_attempts

theorem settles_feature {c : RunConfig} {processors : Nat} (hstopped : t.stopped = false)
    (hcompile : c.compile processors = .ok t.options) {f : Feature} {x : FeatureAccount}
    (hx : x.Sound t true) (hplanned : x.planned = t.options.planFeature f) :
    c.SettlesAll f x where
  places := by
    have hpaired := (List.forall₂_and_left _ _).2 ⟨fun p hp => hp, hx.forall₂_places hplanned⟩
    refine hpaired.imp fun p q hpq => ?_
    obtain ⟨hp, hq, hrule, hat⟩ := hpq
    exact settles_place hstopped hcompile hx hp hq hrule hat
  feature := by
    intro hnone
    refine hx.cues_eq_nil ?_
    rw [hplanned, PlannedFeature.isSelected, RunOptions.scenarios_planFeature, List.any_eq_false]
    intro s hs
    obtain ⟨p, hp, rfl⟩ := List.mem_map.1 hs
    rw [selected_iff hcompile hp]
    exact hnone p hp
  rules := by
    intro r hr hnone
    obtain ⟨e, around, hsound⟩ := hx.child hr
    refine RuleAccount.Sound.cues_eq_nil hsound (List.any_eq_false.2 fun s hs => ?_)
    have hmem : .rule r.planned ∈ x.planned.children := by
      rw [← hx.children_planned]
      exact List.mem_map_of_mem hr
    rw [hplanned] at hmem
    obtain ⟨p, hp, hrule, rfl⟩ := RunOptions.exists_place_of_rule hmem hs
    rw [selected_iff hcompile hp]
    exact hnone p hp hrule

end RunConfig

namespace Runner

/-- In a run that was not stopped and in which no slot before everything has failed, a scenario is
executed if and only if the configuration selects it and all slots on entering the nodes around it
have succeeded. -/
theorem selection_exact {W : Type} (r : Runner W) (suite : Suite) (world : W) (cancelled : Bool)
    (hvalid : suite.violation? = none) (c : RunConfig) (processors : Nat)
    (hcompile : c.compile processors = .ok r.options) {e : Ended W}
    (hends : r.Ends suite world cancelled e) (hstopped : e.stage.isStopped = false)
    (hopens : ∀ s, .slot s ∈ e.cues cancelled → s.event.point = .beforeAll → s.isOk = true) :
    ∃ (k : Company) (a : RunAccount),
      a.Sound ⟨r.options, k, false⟩ cancelled (r.options.plan suite) ∧
      e.report? = some a.result ∧ a.cues.Perm (e.cues cancelled) ∧
      List.Forall₂ c.SettlesAll suite.features a.features := by
  obtain ⟨k, a, ha, hreport, hcues⟩ := hends.exists_account hvalid
  rw [hstopped] at ha
  have hproceeds := ha.proceeds fun s hs => hopens s (hcues.mem_iff.1 hs)
  refine ⟨k, a, ha, hreport, hcues, ha.forall₂_features.imp fun f x hx => ?_⟩
  rw [hproceeds] at hx
  exact RunConfig.settles_feature rfl hcompile hx.1 hx.2

/-- Of two scenarios the one with the tag is executed. -/
theorem selection_exact_tag :
    let c : RunConfig := { RunConfig.default with tags := ["@fast"] }
    let r : Runner Unit := { ofHooks .none with options :=
      { RunOptions.default with selection := ⟨⟨[.tag "fast"]⟩, [], []⟩ } }
    let tagged : Scenario := { Scenario.named "tagged" with tags := .ofList [.ofText "fast"] }
    let suite : Suite := ⟨[{ Feature.named "feature" with
      children := [.definition (.scenario tagged), .definition (.scenario (.named "plain"))] }]⟩
    ∃ a : RunAccount, (r.run suite () false).report? = some a.result ∧
      a.result.scenarios.map (·.attempts) = [1, 0] ∧
      List.Forall₂ c.SettlesAll suite.features a.features := by
  intro c r tagged suite
  have hcompile : c.compile 1 = .ok r.options := rfl
  have hslots : ((r.run suite () false).cues false).filterMap Cue.slot? |>.all (·.isOk) := by
    decide
  have hattempts : (r.run suite () false).report?.map (fun result =>
      result.scenarios.map (·.attempts)) = some [1, 0] := by decide
  obtain ⟨-, a, -, hreport, -, hsettles⟩ :=
    r.selection_exact suite () false (by decide) c 1 hcompile .inOrder (by decide)
      fun s hs _ => List.all_eq_true.1 hslots s (List.mem_filterMap.2 ⟨_, hs, rfl⟩)
  rw [hreport, Option.map_some, Option.some.injEq] at hattempts
  exact ⟨a, hreport, hattempts, hsettles⟩

end Runner

end Rehearsal
