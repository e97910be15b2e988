import Rehearsal.Proofs.DryRun.Promise
import Rehearsal.Proofs.Fatal
import Rehearsal.Proofs.Listing

/-!
# Dry runs and real ones

A dry run calls nothing, and in every selected scenario it shows the forecast of the steps
(`Runner.Goes.forecast`). What is found for a step depends on the step and the registry alone, so a
real run confirms what the dry run is told of each step that it starts
(`StepAccount.Started.confirms`), and an undefined step that a real run comes to has been announced
by the dry run (`ScenarioAccount.Stands.announces`).
-/

namespace Rehearsal

namespace Runner

variable {r : Runner W}

/-- The answer to a request that is the same on all stages with the context. -/
theorem Solo.answered {q : Request} {next : q.Reply → Work α} {c : Context} {a : α}
    {reply : q.Reply} {d : Context}
    (h : ∀ s : Stage W, s.context = c → s.isStopped = false →
      (r.answer s q).2 = reply ∧ (r.answer s q).1.context = d ∧ (r.answer s q).1.isStopped = false)
    (hsolo : r.Solo (next reply) d a) : r.Solo (.ask q next) c a := by
  refine .ask (fun s hs hcalm => (h s hs hcalm).2.2) fun s hs hcalm => ?_
  obtain ⟨hreply, hcontext, -⟩ := h s hs hcalm
  rwa [hreply, hcontext]

end Runner

/-! ### Promises are kept -/

/-- What work promises it comes to by itself. -/
theorem Work.Promises.exists_solo (r : Runner W) {w : Work α} {Q : α → Control → Prop} {c : Context}
    (h : w.Promises r.registry.find Q c.control) : ∃ a d, r.Solo w c a ∧ Q a d := by
  induction w generalizing c with
  | done a => exact ⟨a, _, .done a c, h⟩
  | ask q next ih =>
    cases q with
    | enter level values =>
      obtain ⟨l, -, hpush⟩ := Context.exists_ownAll level values
      have hcontrol : ((c.push level).ownAll values).control = c.control := by
        rw [hpush]
        rfl
      obtain ⟨a, d, hsolo, ha⟩ := ih () (c := (c.push level).ownAll values) (hcontrol ▸ h)
      exact ⟨a, d, .answered (by rintro s rfl hs; exact ⟨rfl, rfl, hs⟩) hsolo, ha⟩
    | leave =>
      obtain ⟨ls, hpop⟩ := c.exists_pop
      have hcontrol : c.pop.control = c.control := by
        rw [hpop]
        rfl
      obtain ⟨a, d, hsolo, ha⟩ := ih () (c := c.pop) (hcontrol ▸ h)
      exact ⟨a, d, .answered (by rintro s rfl hs; exact ⟨rfl, rfl, hs⟩) hsolo, ha⟩
    | reset b =>
      obtain ⟨a, d, hsolo, ha⟩ := ih () (c := c.resetControl b) h
      exact ⟨a, d, .answered (by rintro s rfl hs; exact ⟨rfl, rfl, hs⟩) hsolo, ha⟩
    | control =>
      obtain ⟨a, d, hsolo, ha⟩ := ih c.control h
      exact ⟨a, d, .answered (by rintro s rfl hs; exact ⟨rfl, rfl, hs⟩) hsolo, ha⟩
    | isStopped =>
      obtain ⟨a, d, hsolo, ha⟩ := ih false h
      exact ⟨a, d, .answered (by rintro s rfl hs; exact ⟨hs, rfl, hs⟩) hsolo, ha⟩
    | find step =>
      obtain ⟨a, d, hsolo, ha⟩ := ih (r.registry.find step) h
      exact ⟨a, d, .answered (by rintro s rfl hs; exact ⟨rfl, rfl, hs⟩) hsolo, ha⟩
    | stop | hooks | call => exact h.elim

/-! ### A wish from outside is not taken back -/

theorem Runner.cancelled_answer (r : Runner W) {s : Stage W} (h : s.cancelled = true)
    (q : Request) : (r.answer s q).1.cancelled = true := by
  cases q with
  | hooks event => exact Script.cancelled_play r.ownTarget (r.hooks.call event) _ h
  | call m step => exact Script.cancelled_play r.ownTarget (r.registry.call m step) _ h
  | enter | leave | reset | control | isStopped | stop | find => exact h

theorem Runner.cancelled_perform (r : Runner W) (w : Work α) {s : Stage W}
    (h : s.cancelled = true) : (r.perform w s).1.cancelled = true := by
  induction w generalizing s with
  | done a => exact h
  | ask q next ih => exact ih _ (r.cancelled_answer h q)

theorem Runner.cancelled_of_perform (r : Runner W) (w : Work α) {s : Stage W}
    (h : (r.perform w s).1.cancelled = false) : s.cancelled = false :=
  Bool.eq_false_iff.2 fun hs => Bool.eq_false_iff.1 h (r.cancelled_perform w hs)

namespace Crew

variable {r : Runner W} {context : Context} {c : Crew W}

theorem cancelled_act (h : c.cancelled = true) (i : Nat) :
    (c.act r context i).cancelled = true := by
  cases hturn : c.turn? i with
  | some x =>
    obtain ⟨found, q, next, hi, rfl⟩ := exists_of_turn? hturn
    rw [act_of_busy hi]
    exact r.cancelled_answer h q
  | none =>
    obtain ⟨workers, hact⟩ := act_of_turn?_none r context hturn
    rw [hact]
    exact h

theorem cancelled_go (h : c.cancelled = true) (moves : List Move) :
    (go r context moves c).cancelled = true := by
  induction moves generalizing c with
  | nil => exact h
  | cons m rest ih =>
    cases m with
    | act i => exact ih (cancelled_act h i)
    | cancel => exact ih rfl

/-- A crew that heads for its results goes on to do so unless it is stopped from outside. -/
theorem Heads.go {fs : List FeatureResult} (h : c.Heads r context fs) {moves : List Move}
    (hcalm : (go r context moves c).cancelled = false) :
    (Crew.go r context moves c).Heads r context fs := by
  induction moves generalizing c with
  | nil => exact h
  | cons m rest ih =>
    cases m with
    | act i => exact ih (h.act i) hcalm
    | cancel =>
      exact absurd (cancelled_go (c := { c with cancelled := true }) rfl rest)
        (Bool.eq_false_iff.1 hcalm)

end Crew

namespace RunOptions

variable {o : RunOptions} {reg : Registry W} {c : Control} (hdry : o.dryRun = true)
  (hgo : o.stopOnFailure = false)
include hdry hgo

theorem promises_runPlan (p : Plan) :
    (o.runPlan p).Promises reg.find (fun ending _ => ∃ result, ending = .ok result ∧
      List.Forall₂ reg.ForeseesFeature p.features result.features) c := by
  rw [runPlan, Work.promises_seq]
  refine (o.promises_openRun hdry).imp fun opening c hopening => ?_
  rw [Work.promises_seq, hopening]
  refine (o.promises_runFeatures hdry hgo p.features).imp fun fs c hfs => ?_
  refine (o.promises_closeRun hdry hopening fs).imp fun ending c hending => ?_
  obtain ⟨result, hok, rfl⟩ := hending
  exact ⟨result, hok, hfs⟩

end RunOptions

namespace Runner

variable {r : Runner W} {suite : Suite} {world : W} {cancelled : Bool} {xs : List (Turn W)}
  {e : Ended W}

/-- The crew of a dry run heads for what is foreseen of its features. -/
theorem exists_heads (hdry : r.options.dryRun = true) (hgo : r.options.stopOnFailure = false)
    {s : Stage W} (hcalm : s.isStopped = false) (context : Context) (ps : List PlannedFeature) :
    ∃ fs, List.Forall₂ r.registry.ForeseesFeature ps fs ∧
      (Crew.start s ps).Heads r context fs := by
  have hsolo : ∀ p, ∃ f, r.Solo (r.options.runFeature p) context.fork f ∧
      r.registry.ForeseesFeature p f := fun p =>
    let ⟨f, _, h⟩ := (r.options.promises_runFeature hdry hgo p).exists_solo r
    ⟨f, h⟩
  choose result hresult using hsolo
  refine ⟨ps.map result, ?_, hcalm, ?_⟩
  · exact List.forall₂_map_right_iff.2 (List.forall₂_same.2 fun p _ => (hresult p).2)
  · rw [Crew.start, List.forall₂_map_left_iff, List.forall₂_map_right_iff]
    exact List.forall₂_same.2 fun p _ => .waiting (hresult p).1

/-- What a dry run says of its features, unless it is stopped from outside. -/
theorem Goes.foresees (h : r.Goes suite world cancelled xs e) (hdry : r.options.dryRun = true)
    (hgo : r.options.stopOnFailure = false) (hcalm : e.stage.cancelled = false)
    {result : RunResult} (hreport : e.report? = some result) :
    List.Forall₂ r.registry.ForeseesFeature (r.options.plan suite).features result.features := by
  have hstart : (Stage.start world cancelled).cancelled = false →
      (Stage.start world cancelled).isStopped = false := fun h =>
    Stage.isStopped_eq_false.2 ⟨h, rfl⟩
  cases h with
  | inOrder hvalid =>
    rw [run, hvalid] at hreport hcalm
    obtain ⟨ending, -, hsolo, result', rfl, hfs⟩ :=
      (r.options.promises_runPlan hdry hgo (r.options.plan suite)).exists_solo r (c := .fresh)
    have hending := hsolo.perform rfl (hstart (r.cancelled_of_perform _ hcalm))
    simp only [Ended.report?, hending] at hreport
    cases hreport
    exact hfs
  | @through moves fs hvalid hfs =>
    -- the token is not cancelled in the end, hence neither after the moves nor before them
    have hcrew : (r.crewAfter suite world cancelled moves).cancelled = false :=
      r.cancelled_of_perform (r.options.closeRun _ fs)
        (s := r.stageAfter suite world cancelled moves) hcalm
    have hopened : (r.opened world cancelled).1.cancelled = false :=
      Bool.eq_false_iff.2 fun h => Bool.eq_false_iff.1 hcrew <|
        Crew.cancelled_go (c := r.crew suite world cancelled) h moves
    have hfresh := hstart (r.cancelled_of_perform _ hopened)
    obtain ⟨opening, -, hsolo, hfatal⟩ :=
      (r.options.promises_openRun hdry).exists_solo r (c := .fresh)
    have hopening : (r.opened world cancelled).2 = opening := hsolo.perform rfl hfresh
    have hnone : ¬ (r.opened world cancelled).2.fatal.isSome = true := by simp [hopening, hfatal]
    obtain ⟨fs', hforeseen, hheads⟩ := exists_heads hdry hgo (hsolo.isStopped_perform rfl hfresh)
      (r.opened world cancelled).1.context (r.options.plan suite).features
    rw [featuresAfter?, if_neg hnone] at hfs
    rw [crewAfter, crew_of_not_fatal hnone] at hfs hcrew
    obtain rfl := (hheads.go hcrew).results hfs
    obtain ⟨result', hreport', rfl⟩ := r.report?_finish (r.opened world cancelled).2
      (r.stageAfter suite world cancelled moves) fs
    obtain rfl := Option.some.inj (hreport'.symm.trans hreport)
    exact hforeseen

/-- Every scenario that is selected shows the forecast of its steps. -/
theorem Goes.forecast (h : r.Goes suite world cancelled xs e) (hdry : r.options.dryRun = true)
    (hgo : r.options.stopOnFailure = false) (hcalm : e.stage.cancelled = false)
    {result : RunResult} (hreport : e.report? = some result) :
    List.Forall₂ (fun x s => (r.options.planAt x.1 x.2).selected = true →
        s.steps = r.registry.forecast (x.2.scenario.listedSteps
          (x.1.backgroundsAt false x.2.rule))) suite.places result.scenarios := by
  have hfeatures := h.foresees hdry hgo hcalm hreport
  rw [RunOptions.plan, List.forall₂_map_left_iff] at hfeatures
  refine List.rel_flatMap hfeatures fun f x hx => ?_
  have hplaces : List.Forall₂ (fun q s => r.registry.Foresees
      (f.backgrounds ++ (q.1.bind (·.background)).toList) q.2 s)
      ((r.options.planFeature f).children.flatMap (·.places)) x.scenarios :=
    List.rel_flatMap hx fun _ _ hc => hc
  rw [r.options.places_planFeature, List.forall₂_map_left_iff] at hplaces
  exact List.forall₂_map_left_iff.2 hplaces

end Runner

/-! ### Dry runs and real ones -/

/-- A run has found the same match for the step as a dry run is told, or else comes to the same
result. -/
structure StepResult.Confirms (real told : StepResult) : Prop where
  matched : real.matched = told.matched
  verdict : told.matched = none → real = told

theorem StepResult.Confirms.refl (s : StepResult) : s.Confirms s := ⟨rfl, fun _ => rfl⟩

theorem SlotCue.verdict_ne_undefined (before : SlotCue) (call : Option CallCue) :
    (before.verdict call).status ≠ .undefined := by
  cases call with
  | none =>
    unfold verdict
    dsimp only
    split <;> simp
  | some c =>
    unfold verdict CallCue.verdict
    dsimp only
    split
    · simp
    · split <;> simp

theorem HookReport.weigh_ne_undefined (r : HookReport) {s : Status} (hs : s ≠ .undefined) :
    r.weigh s ≠ .undefined := by
  unfold weigh
  split
  · cases s with
    | undefined => exact absurd rfl hs
    | untested | skipped | passed | error | failed => decide
  · exact hs

namespace StepAccount

variable {t : Terms} {reg : Registry W} {a : StepAccount}

/-- What was found for the step is what the registry has for it. -/
def Finds (reg : Registry W) (a : StepAccount) : Prop :=
  ∀ f ∈ a.start, f.found = reg.find f.step

/-- Whatever becomes of a step, it confirms what a dry run is told. -/
theorem Started.confirms (h : a.Started t) (hfinds : a.Finds reg) :
    a.result.Confirms (reg.told a.listed) := by
  cases h with
  | @faulty step background stopped e calm =>
    rw [Registry.told_of_error (hfinds _ rfl).symm]
    exact .refl _
  | unknown calm =>
    rw [Registry.told_of_unknown (hfinds _ rfl).symm]
    exact .refl _
  | dry hdry calm =>
    rw [Registry.told_of_found (hfinds _ rfl).symm]
    exact .refl _
  | matched hdry calm first opens calls own closes =>
    rw [Registry.told_of_found (hfinds _ rfl).symm]
    exact ⟨rfl, fun hnone => by cases hnone⟩

theorem Started.find_of_passed (h : a.Started t) (hfinds : a.Finds reg)
    (hpassed : a.result.status = .passed) : ∃ m, reg.find a.listed.1 = .ok (some m) := by
  cases h with
  | faulty | unknown | dry => cases hpassed
  | matched => exact ⟨_, (hfinds _ rfl).symm⟩

theorem Started.told_of_undefined (h : a.Started t) (hfinds : a.Finds reg)
    (hundefined : a.result.status = .undefined) : a.result = reg.told a.listed := by
  refine (h.confirms hfinds).verdict ?_
  cases h with
  | faulty | dry => cases hundefined
  | unknown calm => rw [Registry.told_of_unknown (hfinds _ rfl).symm]; rfl
  | @matched step background stopped m before after call =>
    exact absurd hundefined
      (HookReport.weigh_ne_undefined _ (SlotCue.verdict_ne_undefined before call))

end StepAccount

/-- If the run has come to an undefined step with nothing but passed steps before it, the dry run
shows the same step at the same place. -/
def ScenarioResult.Announces (dry real : ScenarioResult) : Prop :=
  ∀ before step after, real.steps = before ++ step :: after → step.status = .undefined →
    (∀ s ∈ before, s.status = .passed) →
    ∃ before' after', dry.steps = before' ++ step :: after' ∧ before'.length = before.length

namespace AttemptAccount

variable {t : Terms} {reg : Registry W} {backgrounds : List Background} {p : PlannedScenario}
  {a : AttemptAccount}

/-- The forecast of the steps announces what an attempt has come to. -/
theorem Sound.announces (h : a.Sound t backgrounds p) (hfinds : ∀ y ∈ a.steps, y.Finds reg)
    {dry real : ScenarioResult} (hreal : real.steps = a.result.steps)
    (hdry : dry.steps = reg.forecast (p.scenario.listedSteps backgrounds)) :
    dry.Announces real := by
  intro before step after hsplit hundefined hpassed
  rw [hreal, h.steps_result, List.map_eq_append_iff] at hsplit
  obtain ⟨ys, rest, hsteps, rfl, hrest⟩ := hsplit
  obtain ⟨y, zs, rfl, rfl, rfl⟩ := List.map_eq_cons_iff.1 hrest
  -- steps that are not started are neither passed nor undefined
  have hstarted : ∀ x ∈ a.steps, x.result.status ≠ .skipped → x.Started t := by
    intro x hx hne
    rcases h.started_or_idle x hx with hstart | ⟨listed, rfl⟩
    · exact hstart
    · exact absurd rfl hne
  have hy : y ∈ a.steps := by simp [hsteps]
  have htold : y.result = reg.told y.listed :=
    (hstarted y hy (by simp [hundefined])).told_of_undefined (hfinds y hy) hundefined
  have hfound : ∀ s ∈ ys.map (·.listed), ∃ m, reg.find s.1 = .ok (some m) := by
    rw [List.forall_mem_map]
    intro x hx
    have hmem : x ∈ a.steps := by simp [hsteps, hx]
    have hstatus : x.result.status = .passed := hpassed _ (List.mem_map_of_mem hx)
    exact (hstarted x hmem (by simp [hstatus])).find_of_passed (hfinds x hmem) hstatus
  have hlisted := h.listed
  rw [hsteps, List.map_append, List.map_cons] at hlisted
  obtain ⟨rest, hforecast⟩ := reg.forecast_append_cons hfound y.listed (zs.map (·.listed))
  refine ⟨(ys.map (·.listed)).map reg.told, rest, ?_, by simp⟩
  rw [hdry, ← hlisted, hforecast, htold]

end AttemptAccount

theorem ScenarioAccount.Stands.announces {t : Terms} {o : RunOptions} {reg : Registry W}
    {x : Feature × ScenarioPlace} {s : ScenarioAccount} (h : s.Stands t o x)
    (hfinds : ∀ a ∈ s.attempts, ∀ y ∈ a.steps, y.Finds reg) {dry : ScenarioResult}
    (hdry : dry.steps =
      reg.forecast (x.2.scenario.listedSteps (x.1.backgroundsAt false x.2.rule))) :
    dry.Announces s.result := by
  obtain ⟨hplanned, entered, barred, hbarred, hsound⟩ := h
  have huntouched := hsound.untouched
  cases hsound with
  | idle p hidle =>
    intro before step after hsplit hundefined
    rw [hsplit] at huntouched
    have hskipped := (huntouched rfl).2.2 step (by simp)
    rw [hundefined] at hskipped
    cases hskipped
  | tried he hselected hdiscarded hkept hbound hend =>
    obtain rfl := hbarred he
    obtain rfl := hplanned
    exact hkept.announces (hfinds _ (List.mem_append_right _ List.mem_cons_self)) rfl hdry

namespace Runner

variable {r : Runner W} {suite : Suite} {world : W} {cancelled : Bool} {xs : List (Turn W)}
  {e : Ended W}

/-- Whatever is looked up in a run is looked up in its registry. -/
theorem find_of_mem_cues {f : FindCue} (hf : .find f ∈ xs.filterMap (·.cue? r)) :
    f.found = r.registry.find f.step := by
  obtain ⟨⟨s, q⟩, -, hcue⟩ := List.mem_filterMap.1 hf
  cases q <;> cases hcue
  rfl

/-- The steps of an account were found as the registry of the run has them. -/
theorem finds_of_unfolds {a : RunAccount} (h : a.Unfolds (xs.filterMap (·.cue? r)))
    {s : ScenarioAccount} (hs : s ∈ a.scenarios) {x : AttemptAccount} (hx : x ∈ s.attempts)
    {y : StepAccount} (hy : y ∈ x.steps) : y.Finds r.registry := by
  intro f hf
  obtain ⟨g, hg, hmem⟩ := List.mem_flatMap.1 hs
  have hsub : y.cues.Sublist (xs.filterMap (·.cue? r)) :=
    (((AttemptAccount.sublist_cues hy).trans (ScenarioAccount.sublist_cues hx)).trans
      (FeatureAccount.sublist_cues hmem)).trans (h.feature hg)
  refine find_of_mem_cues (hsub.subset ?_)
  rw [StepAccount.cues, Option.mem_def.1 hf]
  exact List.mem_cons_self

/-- A dry run calls nothing and comes to a result. Unless it stops on failures or is stopped from
outside, every scenario that is selected shows the forecast of its steps. In any run with the same
registry every step that is started confirms what the dry run is told of it; and in a run over the
same suite, if a scenario comes to an undefined step with nothing but passed steps before it, the
dry run shows that step. -/
theorem dry_run_foretells (r : Runner W) (hdry : r.options.dryRun = true)
    (h : r.Goes suite world cancelled xs e) :
    (∀ x ∈ xs, x.request.isCall = false) ∧ ∃ result, e.result = .ok result ∧
      (r.options.stopOnFailure = false → e.stage.cancelled = false →
        List.Forall₂ (fun x s => (r.options.planAt x.1 x.2).selected = true →
          s.steps = r.registry.forecast (x.2.scenario.listedSteps
            (x.1.backgroundsAt false x.2.rule))) suite.places result.scenarios) ∧
      ∀ (r' : Runner W) (suite' : Suite) (world' : W) (cancelled' : Bool) (xs' : List (Turn W))
        (e' : Ended W), r'.registry = r.registry → r'.Goes suite' world' cancelled' xs' e' →
        ∃ (k : Company) (a : RunAccount),
          a.Sound ⟨r'.options, k, e'.stage.isStopped⟩ cancelled' (r'.options.plan suite') ∧
          e'.report? = some a.result ∧ a.Unfolds (xs'.filterMap (·.cue? r')) ∧
          (∀ s ∈ a.scenarios, ∀ x ∈ s.attempts, ∀ y ∈ x.steps, y.start.isSome = true →
            y.result.Confirms (r.registry.told y.listed)) ∧
          (r.options.stopOnFailure = false → e.stage.cancelled = false → suite' = suite →
            ∀ (i : Nat) (x : Feature × ScenarioPlace), suite.places[i]? = some x →
              (r.options.planAt x.1 x.2).selected = true →
              ∃ dry real : ScenarioResult, result.scenarios[i]? = some dry ∧
                a.result.scenarios[i]? = some real ∧ dry.Announces real) := by
  obtain ⟨⟨result, hresult⟩, hcalls⟩ := h.of_dry hdry
  have hreport : e.report? = some result := by rw [Ended.report?, hresult]
  refine ⟨hcalls, result, hresult, fun hgo hcalm => h.forecast hdry hgo hcalm hreport, ?_⟩
  intro r' suite' world' cancelled' xs' e' hreg h'
  obtain ⟨k, a, ha, hresult', hunfolds⟩ := h'.exists_account
  have hfinds : ∀ s ∈ a.scenarios, ∀ x ∈ s.attempts, ∀ y ∈ x.steps, y.Finds r.registry := by
    intro s hs x hx y hy
    rw [← hreg]
    exact finds_of_unfolds hunfolds hs hx hy
  refine ⟨k, a, ha, Ended.report?_eq hresult', hunfolds, fun s hs x hx y hy hstart => ?_, ?_⟩
  · obtain ⟨entered, backgrounds, hsound⟩ := ha.scenario hs
    rcases (hsound.attempt hx).started_or_idle y hy with hstarted | ⟨listed, rfl⟩
    · exact hstarted.confirms (hfinds s hs x hx y hy)
    · cases hstart
  · rintro hgo hcalm rfl i x hx hselected
    obtain ⟨dry, hdry, hforecast, -⟩ := exists_partner (h.forecast hdry hgo hcalm hreport) hx
    obtain ⟨s, hs, hstands, -⟩ := exists_partner ha.forall₂_places hx
    refine ⟨dry, s.result, hdry, ?_, ?_⟩
    · rw [ha.scenarios_result, List.getElem?_map, hs]
      rfl
    · exact hstands.announces (hfinds s (List.mem_of_getElem? hs)) (hforecast hselected)

/-- Nothing matches the only step of a scenario, neither in the dry run nor in the real one. -/
theorem dry_run_foretells_undefined :
    let real := ofHooks (Hooks.none.register .afterScenario fun _ => .done (.error "boom" false))
    let r := { real with options := { RunOptions.default with dryRun := true } }
    let step := Step.ofClass .context "a door"
    let suite := Suite.single { Scenario.named "scenario" with steps := [step] }
    ∃ result x y, (r.run suite () false).result = .ok result ∧ result.scenarios[0]? = some x ∧
      x.steps = r.registry.forecast [(step, false)] ∧ x.Announces y ∧
      ∃ outcome, (real.run suite () false).report? = some outcome ∧
        outcome.scenarios[0]? = some y ∧ y.steps.map (·.status) = [.undefined] := by
  intro real r step suite
  have hvalid : suite.violation? = none := by decide
  obtain ⟨-, result, hresult, hforecast, hagrees⟩ :=
    r.dry_run_foretells rfl (.inOrder hvalid : r.Goes suite () false _ _)
  obtain ⟨k, a, -, hreport, -, -, hannounces⟩ :=
    hagrees real suite () false _ _ rfl (.inOrder hvalid)
  obtain ⟨x, y, hx, hy, hxy⟩ := hannounces rfl (by decide) rfl 0 _ rfl (by decide)
  have hstatus : (real.run suite () false).report?.map (fun outcome =>
      outcome.scenarios[0]?.map fun y => y.steps.map (·.status)) = some (some [.undefined]) := by
    decide
  rw [hreport, Option.map_some, Option.some.injEq, hy, Option.map_some, Option.some.injEq]
    at hstatus
  obtain ⟨x', hx', hsteps, -⟩ := exists_partner (hforecast rfl (by decide)) (i := 0) rfl
  obtain rfl := Option.some.inj (hx.symm.trans hx')
  exact ⟨result, x, y, hresult, hx, hsteps (by decide), hxy, a.result, hreport, hy, hstatus⟩

end Runner

end Rehearsal
