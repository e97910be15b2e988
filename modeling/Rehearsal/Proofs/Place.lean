import Mathlib.Data.List.Forall2
import Rehearsal.Proofs.Account.Run

/-!
# Places of scenarios

A place is where a concrete scenario stands in a document: the rule around it, if there is one,
and the block of the outline it is made from, if it is made from one. Plans, accounts and
results go through the places of a document in the same order, whatever happens in a run, so
what is known of an account is known of the place it belongs to.

`FeatureAccount.Sound.place` says under which conditions the scenario of a place is started and
which backgrounds come before its steps.
-/

namespace Rehearsal

structure ScenarioPlace where
  rule : Option Rule
  row : Option (Outline × Examples)
  scenario : Scenario

def Definition.places (rule : Option Rule) : Definition → List ScenarioPlace
  | scenario s => [⟨rule, none, s⟩]
  | outline o =>
    (o.examples.mapIdx fun block e =>
      (o.scenariosOf e block).map fun s => ⟨rule, some (o, e), s⟩).flatten

def FeatureChild.places : FeatureChild → List ScenarioPlace
  | definition d => d.places none
  | rule r => r.children.flatMap (·.places (some r))

def Feature.places (f : Feature) : List ScenarioPlace := f.children.flatMap (·.places)

/-- The identity of the scenario of a place. -/
def Feature.idAt (f : Feature) (p : ScenarioPlace) : ScenarioId :=
  ⟨f.path, p.scenario.line, p.scenario.name⟩

/-- The places of the scenarios of a suite, each with its document. -/
def Suite.places (s : Suite) : List (Feature × ScenarioPlace) :=
  s.features.flatMap fun f => f.places.map fun p => (f, p)

theorem map_mapIdx (f : Nat → α → β) (g : β → γ) (xs : List α) :
    (xs.mapIdx f).map g = xs.mapIdx fun i a => g (f i a) := by
  induction xs generalizing f with
  | nil => rfl
  | cons a rest ih => rw [List.mapIdx_cons, List.map_cons, List.mapIdx_cons, ih]

theorem Definition.map_places {α : Type} (rule : Option Rule) (g : Option Rule → Scenario → α)
    (d : Definition) :
    (d.places rule).map (fun p => g p.rule p.scenario) = d.scenarios.map (g rule) := by
  cases d with
  | scenario s => rfl
  | outline o =>
    rw [places, scenarios, Outline.expand, List.map_flatten, List.map_flatten, map_mapIdx,
      map_mapIdx]
    simp only [List.map_map]
    rfl

namespace RunOptions

/-- What the options say about the scenario of a place. -/
def planAt (o : RunOptions) (f : Feature) (p : ScenarioPlace) : PlannedScenario :=
  o.planScenario f.path (f.tags :: p.rule.toList.map (·.tags)) p.scenario

end RunOptions

/-- The planned scenarios of a child with the rule around them. -/
def PlannedChild.places : PlannedChild → List (Option Rule × PlannedScenario)
  | scenario s => [(none, s)]
  | rule r => r.scenarios.map fun s => (some r.rule, s)

theorem RunOptions.places_planChild (o : RunOptions) (f : Feature) (c : FeatureChild) :
    (o.planChild f c).flatMap (·.places) = c.places.map fun p => (p.rule, o.planAt f p) := by
  cases c with
  | definition d =>
    have hplaces := d.map_places none fun r s => (r, o.planScenario f.path
      (f.tags :: r.toList.map (·.tags)) s)
    rw [FeatureChild.places]
    refine Eq.trans ?_ hplaces.symm
    rw [planChild, List.flatMap_map, List.map_eq_flatMap]
    rfl
  | rule r =>
    have hplan : (o.planChild f (.rule r)).flatMap (·.places) =
        (r.children.flatMap Definition.scenarios).map fun s =>
          (some r, o.planScenario f.path [f.tags, r.tags] s) := by
      rw [planChild, List.flatMap_singleton, PlannedChild.places, List.map_map]
      rfl
    rw [hplan, FeatureChild.places, List.map_flatMap, List.map_flatMap]
    refine congrArg List.flatten (List.map_congr_left fun d _ => ?_)
    exact (d.map_places (some r) fun r s => (r, o.planScenario f.path
      (f.tags :: r.toList.map (·.tags)) s)).symm

/-- The plan of a document goes through its places in order. -/
theorem RunOptions.places_planFeature (o : RunOptions) (f : Feature) :
    (o.planFeature f).children.flatMap (·.places) =
      f.places.map fun p => (p.rule, o.planAt f p) := by
  rw [planFeature, List.flatMap_assoc, Feature.places, List.map_flatMap]
  exact congrArg List.flatten (List.map_congr_left fun c _ => o.places_planChild f c)

theorem PlannedChild.map_snd_places (c : PlannedChild) : c.places.map (·.2) = c.scenarios := by
  cases c with
  | scenario s => rfl
  | rule r =>
    rw [places, List.map_map]
    exact List.map_id _

theorem RunOptions.scenarios_planFeature (o : RunOptions) (f : Feature) :
    (o.planFeature f).scenarios = f.places.map (o.planAt f) := by
  have hplaces := congrArg (List.map (·.2)) (o.places_planFeature f)
  rw [List.map_flatMap, List.map_map] at hplaces
  rw [PlannedFeature.scenarios]
  refine Eq.trans ?_ hplaces
  exact congrArg List.flatten (List.map_congr_left fun c _ => c.map_snd_places.symm)

/-- The account of a scenario with that of the rule around it. -/
structure PlaceAccount where
  rule : Option RuleAccount
  scenario : ScenarioAccount

/-- Was the rule around the place entered, if there is one? -/
def PlaceAccount.isInside (p : PlaceAccount) : Bool :=
  p.rule.all fun r => r.start.isSome && r.passage.proceeds

def ChildAccount.places : ChildAccount → List PlaceAccount
  | scenario s => [⟨none, s⟩]
  | rule r => r.scenarios.map fun s => ⟨some r, s⟩

namespace FeatureAccount

def places (a : FeatureAccount) : List PlaceAccount := a.children.flatMap (·.places)

/-- Was the feature started, and did one of the slots on entering it fail? -/
def isBarred (a : FeatureAccount) : Bool := a.start.isSome && !a.passage.proceeds

/-- Were the nodes around the place entered? -/
def enters (a : FeatureAccount) (p : PlaceAccount) : Bool :=
  a.start.isSome && a.passage.proceeds && p.isInside

theorem map_scenario_places (a : FeatureAccount) : a.places.map (·.scenario) = a.scenarios := by
  rw [places, List.map_flatMap, scenarios]
  refine congrArg List.flatten (List.map_congr_left fun c _ => ?_)
  cases c with
  | scenario s => rfl
  | rule r =>
    rw [ChildAccount.places, List.map_map]
    exact List.map_id _

end FeatureAccount

/-- The backgrounds before the steps of a scenario in the rule. The background of the rule is
missing if the feature is barred. -/
def Feature.backgroundsAt (f : Feature) (barred : Bool) (rule : Option Rule) : List Background :=
  f.background.toList ++ if barred then [] else (rule.bind (·.background)).toList

variable {t : Terms} {e : Bool}

theorem RuleAccount.Sound.planned {around : List Background} {a : RuleAccount}
    (h : a.Sound t e around) : a.scenarios.map (·.planned) = a.planned.scenarios := by
  cases h with
  | idle p hidle => exact (Work.each_idle (Work.idle_scenario _) p.scenarios).1
  | visited he hselected hvisited hplanned hinside => exact hplanned

/-- The accounts of a child go through its planned scenarios in order. -/
theorem ChildAccount.places_planned {around : List Background} {a : ChildAccount}
    (h : a.Sound t e around) :
    a.places.map (fun p => (p.rule.map (·.planned.rule), p.scenario.planned)) =
      a.planned.places := by
  cases a with
  | scenario s => rfl
  | rule r =>
    have hplanned := RuleAccount.Sound.planned h
    rw [places, List.map_map, planned, PlannedChild.places, ← hplanned, List.map_map]
    rfl

namespace ChildAccount

/-- The scenario of a place in a child of a feature that was started. -/
theorem Sound.place {around : List Background} {a : ChildAccount} (h : a.Sound t e around)
    {p : PlaceAccount} (hp : p ∈ a.places) :
    p.scenario.Sound t (e && p.isInside)
      (around ++ if e then ((p.rule.map (·.planned.rule)).bind (·.background)).toList else []) := by
  cases a with
  | scenario s =>
    obtain rfl := List.mem_singleton.1 hp
    have hscenario : s.Sound t e around := h
    simpa [PlaceAccount.isInside] using hscenario
  | rule r =>
    obtain ⟨s, hs, rfl⟩ := List.mem_map.1 hp
    have hrule : r.Sound t e around := h
    cases hrule with
    | idle q hidle =>
      obtain ⟨q', -, rfl⟩ := List.mem_map.1 hs
      have hfalse : PlaceAccount.isInside
          ⟨some (.idle (if e then q.backgrounds around else around) q),
          .idle (if e then q.backgrounds around else around) q'⟩ = false := rfl
      have hbackgrounds : (if e then q.backgrounds around else around) =
          around ++ if e then q.rule.background.toList else [] := by
        cases e <;> simp [PlannedRule.backgrounds]
      rw [hfalse, Bool.and_false, hbackgrounds]
      exact .idle q' (.inr (.inr rfl))
    | visited he hselected hvisited hplanned hinside =>
      subst he
      exact hinside s hs

/-- The scenario of a place in a child of a feature that was not started. -/
theorem place_idle (t : Terms) (around : List Background) {c : PlannedChild} {p : PlaceAccount}
    (hp : p ∈ (idle around c).places) :
    p.scenario.Sound t false
      (around ++ ((p.rule.map (·.planned.rule)).bind (·.background)).toList) := by
  cases c with
  | scenario q =>
    obtain rfl := List.mem_singleton.1 hp
    have hscenario : (ScenarioAccount.idle around q).Sound t false around :=
      .idle q (.inr (.inr rfl))
    simpa [PlaceAccount.isInside] using hscenario
  | rule q =>
    obtain ⟨s, hs, rfl⟩ := List.mem_map.1 hp
    obtain ⟨q', -, rfl⟩ := List.mem_map.1 hs
    exact .idle q' (.inr (.inr rfl))

theorem planned_idle (around : List Background) (c : PlannedChild) :
    (idle around c).places.map (fun p => (p.rule.map (·.planned.rule), p.scenario.planned)) =
      c.places := by
  cases c with
  | scenario q => rfl
  | rule q =>
    change ((q.scenarios.map _).map _).map _ = _
    rw [List.map_map, List.map_map]
    rfl

end ChildAccount

namespace FeatureAccount

/-- The account of a feature goes through the places of its plan in order. -/
theorem Sound.places_planned {a : FeatureAccount} (h : a.Sound t e) :
    a.places.map (fun p => (p.rule.map (·.planned.rule), p.scenario.planned)) =
      a.planned.children.flatMap (·.places) := by
  rw [places, List.map_flatMap]
  cases h with
  | idle p hidle =>
    change (p.children.map _).flatMap _ = _
    rw [List.flatMap_map]
    exact congrArg List.flatten (List.map_congr_left fun c _ => ChildAccount.planned_idle _ c)
  | visited he hselected hvisited hplanned hinside =>
    rename_i q start passage children
    change children.flatMap _ = q.children.flatMap _
    rw [← hplanned, List.flatMap_map]
    exact congrArg List.flatten (List.map_congr_left fun c hc =>
      ChildAccount.places_planned (hinside c hc))

/-- The scenario of a place goes as scenarios go: the nodes around it were entered or not, and
its backgrounds are the ones there. -/
theorem Sound.place {a : FeatureAccount} (h : a.Sound t e) {p : PlaceAccount}
    (hp : p ∈ a.places) :
    p.scenario.Sound t (a.enters p)
      (a.planned.feature.backgroundsAt a.isBarred (p.rule.map (·.planned.rule))) := by
  obtain ⟨c, hc, hpc⟩ := List.mem_flatMap.1 hp
  cases h with
  | idle q hidle =>
    obtain ⟨c', -, rfl⟩ := List.mem_map.1 hc
    exact ChildAccount.place_idle t _ hpc
  | visited he hselected hvisited hplanned hinside =>
    have hscenario := ChildAccount.Sound.place (hinside c hc) hpc
    rename_i start passage children
    cases hproceeds : passage.proceeds <;>
      simpa [enters, isBarred, Feature.backgroundsAt, Feature.backgrounds, hproceeds] using
        hscenario

/-- The places of a document and those of an account that goes by its plan belong together. -/
theorem Sound.forall₂_places {o : RunOptions} {f : Feature} {a : FeatureAccount}
    (h : a.Sound t e) (hplanned : a.planned = o.planFeature f) :
    List.Forall₂ (fun p q => q ∈ a.places ∧ q.rule.map (·.planned.rule) = p.rule ∧
      q.scenario.planned = o.planAt f p) f.places a.places := by
  have hplaces := h.places_planned
  rw [hplanned, o.places_planFeature, ← List.forall₂_eq_eq_eq, List.forall₂_map_left_iff,
    List.forall₂_map_right_iff] at hplaces
  have hpaired := hplaces.imp fun q p hqp => Prod.mk.inj hqp
  exact ((List.forall₂_and_left _ _).2 ⟨fun q hq => hq, hpaired⟩).flip

theorem Sound.planned_mem {a : FeatureAccount} (h : a.Sound t e) {p : PlaceAccount}
    (hp : p ∈ a.places) : p.scenario.planned ∈ a.planned.scenarios := by
  have hmem := List.mem_map_of_mem (f := fun p : PlaceAccount =>
    (p.rule.map (·.planned.rule), p.scenario.planned)) hp
  rw [h.places_planned] at hmem
  obtain ⟨c, hc, hpc⟩ := List.mem_flatMap.1 hmem
  have hscenario := List.mem_map_of_mem (f := Prod.snd) hpc
  rw [c.map_snd_places] at hscenario
  exact List.mem_flatMap.2 ⟨c, hc, hscenario⟩

end FeatureAccount

/-- In a run that was not stopped the rule around a selected scenario was started. -/
theorem ChildAccount.Sound.isInside_eq {around : List Background} {a : ChildAccount}
    (h : a.Sound t true around) (hstopped : t.stopped = false) {p : PlaceAccount}
    (hp : p ∈ a.places) (hselected : p.scenario.planned.selected = true) :
    p.isInside = p.rule.all fun r => r.passage.proceeds := by
  cases a with
  | scenario s =>
    obtain rfl := List.mem_singleton.1 hp
    rfl
  | rule r =>
    obtain ⟨s, hs, rfl⟩ := List.mem_map.1 hp
    have hrule : r.Sound t true around := h
    have hmem : s.planned ∈ r.planned.scenarios := by
      rw [← hrule.planned]
      exact List.mem_map_of_mem hs
    have hany : r.planned.isSelected = true := List.any_eq_true.2 ⟨_, hmem, hselected⟩
    cases hrule with
    | idle q hidle => exact absurd hidle (Terms.not_idle hstopped hany rfl)
    | visited he hselected' hvisited hplanned hinside => rfl

/-- A selected scenario of a run that was not stopped is reached if all slots on entering the
nodes around it have succeeded. -/
theorem FeatureAccount.Sound.enters_eq {a : FeatureAccount} (h : a.Sound t true)
    (hstopped : t.stopped = false) {p : PlaceAccount} (hp : p ∈ a.places)
    (hselected : p.scenario.planned.selected = true) :
    a.enters p = (a.passage.proceeds && p.rule.all fun r => r.passage.proceeds) := by
  have hany : a.planned.isSelected = true :=
    List.any_eq_true.2 ⟨_, h.planned_mem hp, hselected⟩
  obtain ⟨c, hc, hpc⟩ := List.mem_flatMap.1 hp
  cases h with
  | idle q hidle => exact absurd hidle (Terms.not_idle hstopped hany rfl)
  | visited he hselected' hvisited hplanned hinside =>
    rename_i q start passage children
    cases hproceeds : passage.proceeds with
    | false => simp [enters, hproceeds]
    | true =>
      have hchild := hinside c hc
      rw [hproceeds] at hchild
      have hrule := hchild.isInside_eq hstopped hpc hselected
      simp [enters, hproceeds, hrule]

/-- The features of a suite and those of an account that goes by its plan belong together. -/
theorem RunAccount.Sound.forall₂_features {o : RunOptions} {suite : Suite} {b : Bool}
    {a : RunAccount} (h : a.Sound t b (o.plan suite)) :
    List.Forall₂ (fun f x => x.Sound t a.passage.proceeds ∧ x.planned = o.planFeature f)
      suite.features a.features := by
  have hplanned := h.planned
  rw [RunOptions.plan, ← List.forall₂_eq_eq_eq, List.forall₂_map_left_iff,
    List.forall₂_map_right_iff] at hplanned
  exact ((List.forall₂_and_left _ _).2 ⟨h.inside, hplanned⟩).flip

/-- The scenario of a place, as an account has it: the nodes around it were entered or not, and the
feature was barred or not. -/
def ScenarioAccount.Stands (t : Terms) (o : RunOptions) (x : Feature × ScenarioPlace)
    (s : ScenarioAccount) : Prop :=
  s.planned = o.planAt x.1 x.2 ∧ ∃ entered barred, (entered = true → barred = false) ∧
    s.Sound t entered (x.1.backgroundsAt barred x.2.rule)

/-- The places of a suite and the scenarios of an account that goes by its plan belong together. -/
theorem RunAccount.Sound.forall₂_places {o : RunOptions} {suite : Suite} {b : Bool}
    {a : RunAccount} (h : a.Sound t b (o.plan suite)) :
    List.Forall₂ (ScenarioAccount.Stands t o) suite.places a.scenarios := by
  refine List.rel_flatMap h.forall₂_features fun f x hx => ?_
  obtain ⟨hsound, hplanned⟩ := hx
  rw [← x.map_scenario_places, List.forall₂_map_left_iff, List.forall₂_map_right_iff]
  refine (hsound.forall₂_places hplanned).imp fun p q hpq => ?_
  obtain ⟨hq, hrule, hat⟩ := hpq
  have hscenario := hsound.place hq
  rw [hrule, hplanned] at hscenario
  refine ⟨hat, x.enters q, x.isBarred, fun henters => ?_, hscenario⟩
  simp only [FeatureAccount.enters, Bool.and_eq_true] at henters
  simp [FeatureAccount.isBarred, henters]

end Rehearsal
