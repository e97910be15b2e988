import Rehearsal.Proofs.Place

/-!
# Steps listed in results

Every scenario of a document has a result, and whatever happens in the run this result lists
the steps that the document gives the scenario: those of the backgrounds around it, and then
its own.

There is one exception (`Runner.barred_feature_omits_background`). A feature is barred if it
was started and one of the slots on entering it has failed. In a barred feature the scenarios
of rules lack the steps of the background of their rule.
-/

namespace Rehearsal

/-- A step as it is listed: all that the document says of it. -/
structure ListedStep where
  keyword : String
  stepType : Option KeywordClass
  text : String
  line : Nat
  background : Bool
  deriving DecidableEq, Repr

def Step.listed (background : Bool) (s : Step) : ListedStep :=
  ⟨s.keyword, s.stepType, s.text, s.line, background⟩

def StepResult.listed (s : StepResult) : ListedStep :=
  ⟨s.keyword, s.stepType, s.text, s.line, s.background⟩

namespace Feature

/-- The steps of a place: those of the background of the feature, those of the background of
the rule around it, unless the feature is barred, and those of the scenario. -/
def stepsAt (f : Feature) (barred : Bool) (p : ScenarioPlace) : List ListedStep :=
  (f.background.toList.flatMap (·.steps)).map (·.listed true) ++
    (if barred then []
      else ((p.rule.bind (·.background)).toList.flatMap (·.steps)).map (·.listed true)) ++
    p.scenario.steps.map (·.listed false)

theorem listedSteps_backgroundsAt (f : Feature) (barred : Bool) (p : ScenarioPlace) :
    (p.scenario.listedSteps (f.backgroundsAt barred p.rule)).map (fun s => s.1.listed s.2) =
      f.stepsAt barred p := by
  rw [Scenario.listedSteps, backgroundsAt, stepsAt]
  cases barred <;> simp [Function.comp_def]

end Feature

/-- There is one result for each place of the document, in order, which lists the steps of the
place. -/
def FeatureResult.Lists (f : Feature) (barred : Bool) (x : FeatureResult) : Prop :=
  List.Forall₂ (fun p s => s.id = f.idAt p ∧ s.steps.map (·.listed) = f.stepsAt barred p)
    f.places x.scenarios

instance (f : Feature) (barred : Bool) (x : FeatureResult) : Decidable (x.Lists f barred) :=
  inferInstanceAs (Decidable (List.Forall₂ _ _ _))

variable {t : Terms} {e : Bool} {backgrounds : List Background}

/-- However a step goes, its result says of it what the document does. -/
theorem StepAccount.Started.listed_result {a : StepAccount} (h : a.Started t) :
    a.result.listed = a.step.listed a.background := by
  cases h <;> rfl

theorem AttemptAccount.Sound.listed_steps {p : PlannedScenario} {a : AttemptAccount}
    (h : a.Sound t backgrounds p) :
    a.result.steps.map (·.listed) =
      (p.scenario.listedSteps backgrounds).map fun s => s.1.listed s.2 := by
  rw [h.steps_result, ← h.listed, List.map_map, List.map_map]
  refine List.map_congr_left fun s hs => ?_
  rcases h.started_or_idle s hs with hstart | ⟨listed, rfl⟩
  · exact hstart.listed_result
  · rfl

/-- The result of a scenario, started or not, has its identity and lists its steps. -/
theorem ScenarioAccount.Sound.listed_steps {a : ScenarioAccount} (h : a.Sound t e backgrounds) :
    a.result.id = a.planned.id ∧ a.result.steps.map (·.listed) =
      (a.planned.scenario.listedSteps backgrounds).map fun s => s.1.listed s.2 := by
  cases h with
  | idle p hidle =>
    refine ⟨rfl, ?_⟩
    change ((p.scenario.listedSteps backgrounds).map _).map _ = _
    rw [List.map_map]
    rfl
  | tried he hselected hdiscarded hkept hbound hend =>
    exact ⟨congrArg ScenarioResult.id hkept.result, hkept.listed_steps⟩

/-- The result of a feature lists all steps if its account goes by the plan of the document. -/
theorem FeatureAccount.Sound.lists {o : RunOptions} {f : Feature} {a : FeatureAccount}
    (h : a.Sound t e) (hplanned : a.planned = o.planFeature f) :
    a.result.Lists f a.isBarred := by
  rw [FeatureResult.Lists, h.scenarios_result, ← a.map_scenario_places, List.map_map,
    List.forall₂_map_right_iff]
  refine (h.forall₂_places hplanned).imp fun p q hpq => ?_
  obtain ⟨hq, hrule, hat⟩ := hpq
  obtain ⟨hid, hsteps⟩ := (h.place hq).listed_steps
  rw [hat, hrule, hplanned] at hsteps
  refine ⟨?_, hsteps.trans (f.listedSteps_backgroundsAt a.isBarred p)⟩
  rw [Function.comp_apply, hid, hat]
  rfl

/-- A feature with a single scenario, in a rule whose background has a single step. -/
def Feature.inRule (step : Step) (s : Scenario) : Feature :=
  let rule : Rule := { Rule.named "rule" with
    background := some { Background.blank with steps := [step] }
    children := [.scenario s] }
  { Feature.named "feature" with children := [.rule rule] }

/-- The results of the scenarios of a run, in order, are those of the places of its suite. -/
theorem RunAccount.Sound.ids {o : RunOptions} {suite : Suite} {b : Bool} {a : RunAccount}
    (h : a.Sound t b (o.plan suite)) :
    a.result.scenarios.map (·.id) = suite.places.map fun x => x.1.idAt x.2 := by
  have hfeature : List.Forall₂ (fun f x => f.places.map f.idAt = x.result.scenarios.map (·.id))
      suite.features a.features := by
    refine h.forall₂_features.imp fun f x hx => ?_
    have hids := (hx.1.lists hx.2).imp fun p s hs => hs.1.symm
    rwa [← List.forall₂_eq_eq_eq, List.forall₂_map_left_iff, List.forall₂_map_right_iff]
  rw [RunResult.scenarios, scenariosOf, h.features_result, List.flatMap_map, List.map_flatMap,
    Suite.places, List.map_flatMap]
  generalize suite.features = fs, a.features = xs at hfeature
  induction hfeature with
  | nil => rfl
  | cons hx hrest ih =>
    rw [List.flatMap_cons, List.flatMap_cons, ih, ← hx, List.map_map]
    rfl

namespace Runner

variable {W : Type} (r : Runner W) (suite : Suite) (world : W) (cancelled : Bool)

/-- In the result of every run the scenarios of a document list their steps; in a barred feature
the scenarios of rules lack the background of their rule. -/
theorem steps_listed {result : RunResult}
    (h : (r.run suite world cancelled).report? = some result) :
    ∃ a : RunAccount, a.Sound (r.terms suite world cancelled) cancelled (r.options.plan suite) ∧
      a.cues = r.cues suite world cancelled ∧ result.features = a.features.map (·.result) ∧
      List.Forall₂ (fun f x => x.result.Lists f x.isBarred) suite.features a.features := by
  obtain ⟨a, ha, rfl, hcues, -⟩ := r.exists_account_of_report suite world cancelled h
  refine ⟨a, ha, hcues, ha.features_result, ha.forall₂_features.imp fun f x hx => ?_⟩
  exact hx.1.lists hx.2

/-- A run over a feature with a rule, which has a background. -/
theorem steps_listed_rule :
    let r := ofHooks .none
    let suite : Suite := ⟨[.inRule (.ofClass .context "a door") (.named "scenario")]⟩
    ∃ result, (r.run suite () false).report? = some result ∧
      ∃ a : RunAccount, result.features = a.features.map (·.result) ∧
        List.Forall₂ (fun f x => x.result.Lists f x.isBarred) suite.features a.features := by
  intro r suite
  have hreport : (r.run suite () false).report?.isSome = true := by decide
  obtain ⟨result, hresult⟩ := Option.isSome_iff_exists.1 hreport
  obtain ⟨a, -, -, hfeatures, hlists⟩ := r.steps_listed suite () false hresult
  exact ⟨result, hresult, a, hfeatures, hlists⟩

/-- A hook fails before a feature with a rule, and the scenario of the rule does not list the step
of the background of the rule. -/
theorem barred_feature_omits_background :
    let r := ofHooks (Hooks.none.register .beforeFeature fun _ => .done (.error "boom" false))
    let suite : Suite := ⟨[.inRule (.ofClass .context "a door") (.named "scenario")]⟩
    suite.violation? = none ∧ ∃ result, (r.run suite () false).report? = some result ∧
      ¬ List.Forall₂ (fun f x => x.Lists f false) suite.features result.features := by
  intro r suite
  have hreport : (r.run suite () false).report?.any (fun result =>
      !decide (List.Forall₂ (fun f x => FeatureResult.Lists f false x) suite.features
        result.features)) = true := by decide
  obtain ⟨result, hresult, hmissing⟩ := (Option.any_eq_true _ _).1 hreport
  rw [Bool.not_eq_true', decide_eq_false_iff_not] at hmissing
  exact ⟨by decide, result, hresult, hmissing⟩

end Runner

end Rehearsal
