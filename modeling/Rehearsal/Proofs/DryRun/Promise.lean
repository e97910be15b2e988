import Mathlib.Data.List.Forall2
import Rehearsal.Proofs.Account.Moves
import Rehearsal.Proofs.Parallel
import Rehearsal.Proofs.Place

/-!
# What dry runs come to

A dry run calls no user code, so what it comes to depends on the documents and on the registry
alone. `Work.Promises` says of some work that it has a result with a property if nobody wants the
run to stop, whatever the world of the user code is; it is shown for each function of the runner in
turn, and holds for runs in order and for the workers of a crew alike
(`Work.Promises.exists_solo`).

The property is that every selected scenario shows the forecast of its steps
(`Registry.forecast`): the steps are looked up until one of them is not found, and the rest is
skipped.
-/

namespace Rehearsal

namespace Registry

variable (reg : Registry W)

/-- What a dry run says of a step that it looks up. -/
def told (s : Step × Bool) : StepResult :=
  match reg.find s.1 with
  | .ok (some m) => { StepResult.skipped s.1 s.2 with status := .untested, matched := some m }
  | .ok none =>
    { StepResult.skipped s.1 s.2 with
      status := .undefined, message := some s.1.undefinedMessage }
  | .error e => { StepResult.skipped s.1 s.2 with status := .error, message := some e.message }

section Told

variable {reg} {s : Step × Bool}

theorem told_of_found {m : StepMatch} (h : reg.find s.1 = .ok (some m)) :
    reg.told s = { StepResult.skipped s.1 s.2 with status := .untested, matched := some m } := by
  rw [told, h]

theorem told_of_unknown (h : reg.find s.1 = .ok none) :
    reg.told s = { StepResult.skipped s.1 s.2 with
      status := .undefined, message := some s.1.undefinedMessage } := by
  rw [told, h]

theorem told_of_error {e : MatchError} (h : reg.find s.1 = .error e) :
    reg.told s =
      { StepResult.skipped s.1 s.2 with status := .error, message := some e.message } := by
  rw [told, h]

end Told

/-- What a dry run says of the steps of a scenario: they are looked up, up to the first one that is
not found, and the steps after that one are skipped. -/
def forecast : List (Step × Bool) → List StepResult
  | [] => []
  | s :: rest =>
    reg.told s ::
      match reg.find s.1 with
      | .ok (some _) => forecast rest
      | _ => rest.map fun s => .skipped s.1 s.2

/-- The step is told at its place if all steps before it are found. -/
theorem forecast_append_cons {before : List (Step × Bool)}
    (hfound : ∀ s' ∈ before, ∃ m, reg.find s'.1 = .ok (some m)) (s : Step × Bool)
    (after : List (Step × Bool)) :
    ∃ rest, reg.forecast (before ++ s :: after) = before.map reg.told ++ reg.told s :: rest := by
  induction before with
  | nil => exact ⟨_, rfl⟩
  | cons s' before ih =>
    obtain ⟨⟨m, hm⟩, hbefore⟩ := List.forall_mem_cons.1 hfound
    obtain ⟨rest, hrest⟩ := ih hbefore
    refine ⟨rest, ?_⟩
    rw [List.cons_append, forecast, hm, hrest]
    rfl

/-- If the scenario is selected, its result has the forecast of its steps. -/
def Foresees (backgrounds : List Background) (p : PlannedScenario) (s : ScenarioResult) : Prop :=
  p.selected = true → s.steps = reg.forecast (p.scenario.listedSteps backgrounds)

/-- The scenarios of a child are foreseen, each with the backgrounds there. -/
def ForeseesChild (around : List Background) (p : PlannedChild) (c : ChildResult) : Prop :=
  List.Forall₂ (fun x s => reg.Foresees (around ++ (x.1.bind (·.background)).toList) x.2 s) p.places
    c.scenarios

def ForeseesFeature (p : PlannedFeature) (f : FeatureResult) : Prop :=
  List.Forall₂ (reg.ForeseesChild p.feature.backgrounds) p.children f.children

variable {reg}

/-- Scenarios that are not selected are foreseen, whatever is said of them. -/
theorem forall₂_foresees {backgrounds : List Background} {ps : List PlannedScenario}
    (h : ∀ p ∈ ps, ¬ p.selected = true) (result : PlannedScenario → ScenarioResult) :
    List.Forall₂ (reg.Foresees backgrounds) ps (ps.map result) :=
  List.forall₂_map_right_iff.2 (List.forall₂_same.2 fun p hp hselected => absurd hselected (h p hp))

theorem foreseesChild_skipped {around : List Background} {p : PlannedChild}
    (h : ∀ q ∈ p.scenarios, ¬ q.selected = true) :
    reg.ForeseesChild around p (p.skipped around) := by
  cases p with
  | scenario q => exact .cons (fun hselected => absurd hselected (h q List.mem_cons_self)) .nil
  | rule q =>
    have hscenarios : List.Forall₂ (reg.Foresees (q.backgrounds around)) q.scenarios
        (q.scenarios.map (·.skipped (q.backgrounds around))) := forall₂_foresees h _
    exact List.forall₂_map_left_iff.2 hscenarios

end Registry

namespace Work

/-- Done with the switches `c` while nobody wants the run to stop, the work calls no user code, does
not stop the run, and comes to a result with the property. -/
def Promises (find : Step → Except MatchError (Option StepMatch)) (Q : α → Control → Prop) :
    Work α → Control → Prop
  | .done a, c => Q a c
  | .ask (.enter _ _) next, c => (next ()).Promises find Q c
  | .ask .leave next, c => (next ()).Promises find Q c
  | .ask (.reset b) next, _ => (next ()).Promises find Q ⟨none, b⟩
  | .ask .control next, c => (next c).Promises find Q c
  | .ask .isStopped next, c => (next false).Promises find Q c
  | .ask (.find step) next, c => (next (find step)).Promises find Q c
  | .ask .stop _, _ | .ask (.hooks _) _, _ | .ask (.call _ _) _, _ => False

variable {find : Step → Except MatchError (Option StepMatch)} {c : Control}

@[simp] theorem promises_pure {a : α} {Q : α → Control → Prop} :
    (pure a : Work α).Promises find Q c ↔ Q a c := .rfl

@[simp] theorem promises_seq {w : Work α} {k : α → Work β} {Q : β → Control → Prop} :
    (w >>= k).Promises find Q c ↔ w.Promises find (fun a c => (k a).Promises find Q c) c := by
  change (w.bind k).Promises find Q c ↔ _
  induction w generalizing c with
  | done a => exact .rfl
  | ask q next ih =>
    cases q with
    | stop | hooks | call => exact .rfl
    | enter | leave | reset | control | isStopped | find => exact ih _

section Requests

variable {Q : Unit → Control → Prop}

@[simp] theorem promises_enter {level : ScopeLevel} {values : List (String × Datum)} :
    (enter level values).Promises find Q c ↔ Q () c := .rfl

@[simp] theorem promises_leave : leave.Promises find Q c ↔ Q () c := .rfl

@[simp] theorem promises_reset {b : Bool} : (reset b).Promises find Q c ↔ Q () ⟨none, b⟩ := .rfl

@[simp] theorem promises_control {Q : Control → Control → Prop} :
    control.Promises find Q c ↔ Q c c := .rfl

@[simp] theorem promises_isStopped {Q : Bool → Control → Prop} :
    isStopped.Promises find Q c ↔ Q false c := .rfl

@[simp] theorem promises_find {step : Step}
    {Q : Except MatchError (Option StepMatch) → Control → Prop} :
    (Work.find step).Promises find Q c ↔ Q (find step) c := .rfl

end Requests

theorem Promises.imp {w : Work α} {Q R : α → Control → Prop} (h : w.Promises find Q c)
    (hQ : ∀ a c, Q a c → R a c) : w.Promises find R c := by
  induction w generalizing c with
  | done a => exact hQ a c h
  | ask q next ih =>
    cases q with
    | stop | hooks | call => exact h
    | enter | leave | reset | control | isStopped | find => exact ih _ h

end Work

/-! ### The functions of the runner -/

namespace RunOptions

variable {o : RunOptions} {find : Step → Except MatchError (Option StepMatch)} {reg : Registry W}
  {c : Control} (hdry : o.dryRun = true)
include hdry

theorem promises_slot {point : HookPoint} {scope : HookScope} {status : Option Status}
    {Q : SlotCall → Control → Prop} :
    (o.slot point scope status).Promises find Q c ↔ Q ⟨none, .empty⟩ c := by
  rw [slot, if_pos hdry, Work.promises_pure]

theorem promises_enterTags (tags : List Tag) {e : NodeEntry} (he : e.proceeds = true)
    {Q : NodeEntry → Control → Prop} (hQ : ∀ e, e.proceeds = true → Q e c) :
    (o.enterTags e tags).Promises find Q c := by
  induction tags generalizing e with
  | nil => exact hQ e he
  | cons tag rest ih =>
    rw [enterTags, Work.promises_seq, o.promises_slot hdry]
    exact ih rfl

/-- In a dry run every node is entered. -/
theorem promises_enterNode (tags : TagSet) (point : HookPoint) (scope : HookScope)
    {Q : NodeEntry → Control → Prop} (hQ : ∀ e, e.proceeds = true → Q e c) :
    (o.enterNode tags point scope).Promises find Q c := by
  rw [enterNode, Work.promises_seq]
  refine o.promises_enterTags hdry _ rfl fun e he => ?_
  rw [if_pos he, Work.promises_seq, o.promises_slot hdry]
  exact hQ _ rfl

theorem promises_exitTags (status : Status) (tags : List String) (report : HookReport)
    {Q : HookReport → Control → Prop} (hQ : ∀ report, Q report c) :
    (o.exitTags status report tags).Promises find Q c := by
  induction tags generalizing report with
  | nil => exact hQ report
  | cons tag rest ih =>
    rw [exitTags, Work.promises_seq, o.promises_slot hdry]
    exact ih _

theorem promises_exitNode (e : NodeEntry) (point : HookPoint) (scope : HookScope) (status : Status)
    {Q : HookReport → Control → Prop} (hQ : ∀ report, Q report c) :
    (o.exitNode e point scope status).Promises find Q c := by
  unfold exitNode
  split
  · rw [Work.promises_seq, o.promises_slot hdry]
    exact o.promises_exitTags hdry status _ _ hQ
  · exact o.promises_exitTags hdry status _ _ hQ

theorem promises_runStep (s : Step × Bool) {Q : StepResult → Control → Prop}
    (hQ : Q (reg.told s) c) : (o.runStep s.1 s.2).Promises reg.find Q c := by
  rw [runStep, Work.promises_seq, Work.promises_find]
  cases hfind : reg.find s.1 with
  | error e => rwa [Registry.told_of_error hfind] at hQ
  | ok found =>
    cases found with
    | none => rwa [Registry.told_of_unknown hfind] at hQ
    | some m =>
      rw [Registry.told_of_found hfind] at hQ
      simpa only [if_pos hdry, Work.promises_pure] using hQ

theorem promises_runSteps (on : Bool) (ss : List (Step × Bool))
    {Q : List StepResult → Control → Prop} (hQ : Q (reg.forecast ss) c) :
    (o.runSteps on ss).Promises reg.find Q c := by
  induction ss generalizing Q with
  | nil => exact hQ
  | cons s rest ih =>
    rw [runSteps, Work.promises_seq, Work.promises_isStopped, if_neg Bool.false_ne_true,
      Work.promises_seq]
    refine o.promises_runStep hdry s ?_
    rw [Registry.forecast] at hQ
    cases hfind : reg.find s.1 with
    | error e =>
      rw [hfind] at hQ
      rw [if_pos (by rw [Registry.told_of_error hfind]; rfl), Work.promises_pure]
      exact hQ
    | ok found =>
      cases found with
      | none =>
        rw [hfind] at hQ
        rw [if_pos (by rw [Registry.told_of_unknown hfind]; rfl), Work.promises_pure]
        exact hQ
      | some m =>
        rw [hfind] at hQ
        rw [if_neg (by rw [Registry.told_of_found hfind]; exact Bool.false_ne_true),
          Work.promises_seq]
        exact ih hQ

theorem promises_tryScenario (backgrounds : List Background) (p : PlannedScenario)
    {Q : ScenarioResult → Control → Prop}
    (hQ : ∀ s c, s.steps = reg.forecast (p.scenario.listedSteps backgrounds) → Q s c) :
    (o.tryScenario backgrounds p).Promises reg.find Q c := by
  rw [tryScenario, Work.promises_seq, Work.promises_enter, Work.promises_seq, Work.promises_reset,
    Work.promises_seq]
  refine o.promises_enterNode hdry _ _ _ fun entry hentry => ?_
  -- no user code could have asked since the reset that the scenario be skipped
  rw [Work.promises_seq, Work.promises_control, hentry]
  simp only [Option.isNone_none, Bool.and_self, if_true, Work.promises_seq]
  refine o.promises_runSteps hdry _ _ ?_
  refine o.promises_exitNode hdry _ _ _ _ fun report => ?_
  simp [hQ, PlannedScenario.outcome]

theorem promises_tryAgain (backgrounds : List Background) (p : PlannedScenario) (before left : Nat)
    {Q : ScenarioResult → Control → Prop}
    (hQ : ∀ s c, s.steps = reg.forecast (p.scenario.listedSteps backgrounds) → Q s c) :
    (o.tryAgain backgrounds p before left).Promises reg.find Q c := by
  induction left generalizing before c with
  | zero =>
    rw [tryAgain, Work.promises_seq]
    exact o.promises_tryScenario hdry backgrounds p fun s c hs => hQ _ c hs
  | succ left ih =>
    rw [tryAgain, Work.promises_seq]
    refine o.promises_tryScenario hdry backgrounds p fun s c hs => ?_
    split
    · rw [Work.promises_seq, Work.promises_isStopped]
      exact ih (before + 1)
    · exact hQ _ c hs

variable (hgo : o.stopOnFailure = false)
include hgo

theorem promises_runScenario (backgrounds : List Background) (p : PlannedScenario) :
    (o.runScenario backgrounds p).Promises reg.find
      (fun s _ => reg.Foresees backgrounds p s) c := by
  unfold runScenario
  split
  · rw [Work.promises_seq, Work.promises_isStopped, if_neg Bool.false_ne_true, Work.promises_seq]
    refine o.promises_tryAgain hdry backgrounds p _ _ fun s c hs => ?_
    rw [hgo, Bool.and_false, if_neg Bool.false_ne_true, Work.promises_pure]
    exact fun _ => hs
  · rename_i hselected
    exact fun h => absurd h hselected

theorem promises_runScenarios (backgrounds : List Background) (ps : List PlannedScenario) :
    (o.runScenarios backgrounds ps).Promises reg.find
      (fun ss _ => List.Forall₂ (reg.Foresees backgrounds) ps ss) c := by
  induction ps generalizing c with
  | nil => exact .nil
  | cons p rest ih =>
    rw [runScenarios, Work.promises_seq]
    refine (o.promises_runScenario hdry hgo backgrounds p).imp fun s c hs => ?_
    rw [Work.promises_seq]
    exact ih.imp fun ss _ hss => .cons hs hss

theorem promises_runRule (around : List Background) (p : PlannedRule) :
    (o.runRule around p).Promises reg.find
      (fun r _ => List.Forall₂ (reg.Foresees (p.backgrounds around)) p.scenarios r.scenarios)
      c := by
  unfold runRule
  split
  · rw [Work.promises_seq, Work.promises_isStopped, if_neg Bool.false_ne_true, Work.promises_seq,
      Work.promises_enter, Work.promises_seq]
    refine o.promises_enterNode hdry _ _ _ fun entry hentry => ?_
    rw [Work.promises_seq, if_pos hentry]
    refine (o.promises_runScenarios hdry hgo _ _).imp fun scenarios c hscenarios => ?_
    rw [Work.promises_seq]
    exact o.promises_exitNode hdry _ _ _ _ fun report => hscenarios
  · rename_i hselected
    rw [PlannedRule.isSelected, List.any_eq_true] at hselected
    exact Registry.forall₂_foresees (fun s hs h => hselected ⟨s, hs, h⟩) _

theorem promises_runChild (around : List Background) (p : PlannedChild) :
    (o.runChild around p).Promises reg.find (fun r _ => reg.ForeseesChild around p r) c := by
  cases p with
  | scenario p =>
    rw [runChild, Work.promises_seq]
    refine (o.promises_runScenario hdry hgo around p).imp fun s c hs => ?_
    exact .cons (by simpa using hs) .nil
  | rule p =>
    rw [runChild, Work.promises_seq]
    refine (o.promises_runRule hdry hgo around p).imp fun r c hr => ?_
    exact List.forall₂_map_left_iff.2 hr

theorem promises_runChildren (around : List Background) (ps : List PlannedChild) :
    (o.runChildren around ps).Promises reg.find
      (fun rs _ => List.Forall₂ (reg.ForeseesChild around) ps rs) c := by
  induction ps generalizing c with
  | nil => exact .nil
  | cons p rest ih =>
    rw [runChildren, Work.promises_seq]
    refine (o.promises_runChild hdry hgo around p).imp fun r c hr => ?_
    rw [Work.promises_seq]
    exact ih.imp fun rs _ hrs => .cons hr hrs

theorem promises_runFeature (p : PlannedFeature) :
    (o.runFeature p).Promises reg.find (fun f _ => reg.ForeseesFeature p f) c := by
  unfold runFeature
  split
  · rw [Work.promises_seq, Work.promises_isStopped, if_neg Bool.false_ne_true, Work.promises_seq,
      Work.promises_enter, Work.promises_seq]
    refine o.promises_enterNode hdry _ _ _ fun entry hentry => ?_
    rw [Work.promises_seq, if_pos hentry]
    refine (o.promises_runChildren hdry hgo _ _).imp fun children c hchildren => ?_
    rw [Work.promises_seq]
    exact o.promises_exitNode hdry _ _ _ _ fun report => hchildren
  · rename_i hselected
    rw [PlannedFeature.isSelected, List.any_eq_true] at hselected
    refine List.forall₂_map_right_iff.2 (List.forall₂_same.2 fun child hchild => ?_)
    refine Registry.foreseesChild_skipped fun s hs h => hselected ⟨s, ?_, h⟩
    exact List.mem_flatMap.2 ⟨child, hchild, hs⟩

theorem promises_runFeatures (ps : List PlannedFeature) :
    (o.runFeatures ps).Promises reg.find
      (fun fs _ => List.Forall₂ reg.ForeseesFeature ps fs) c := by
  induction ps generalizing c with
  | nil => exact .nil
  | cons p rest ih =>
    rw [runFeatures, Work.promises_seq]
    refine (o.promises_runFeature hdry hgo p).imp fun f c hf => ?_
    rw [Work.promises_seq]
    exact ih.imp fun fs _ hfs => .cons hf hfs

omit hgo

theorem promises_openRun :
    o.openRun.Promises find (fun opening _ => opening.fatal = none) c := by
  rw [openRun, Work.promises_seq, Work.promises_enter, Work.promises_seq, o.promises_slot hdry]
  rfl

theorem promises_closeRun {opening : Opening} (hopening : opening.fatal = none)
    (fs : List FeatureResult) :
    (o.closeRun opening fs).Promises find
      (fun ending _ => ∃ result, ending = .ok result ∧ result.features = fs) c := by
  rw [closeRun, Work.promises_seq, o.promises_slot hdry, Work.promises_seq, Work.promises_leave,
    Work.promises_seq, Work.promises_isStopped, hopening]
  exact ⟨_, rfl, rfl⟩

end RunOptions

end Rehearsal
