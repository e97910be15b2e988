import Mathlib.Data.Fintype.Basic
import Mathlib.Data.List.Forall2
import Rehearsal.Proofs.Crew
import Rehearsal.Proofs.Parallel.Solo

/-!
# Parallel runs against runs in order

A run in order that is not stopped shows, feature by feature, what the work on each feature comes
to by itself (`Runner.solo_features`). A crew that works on copies of the context as the opening
has left it heads for the same results whatever the schedule is (`Crew.Heads`), and every schedule
can be continued until all features are finished (`Crew.exists_finish`). So a parallel run has the
result of the run in order (`Runner.parallel_agrees`).
-/

namespace Rehearsal

/-- The partner of a member of one list, for which the member may be exchanged. -/
theorem exists_partner {R : α → β → Prop} {xs : List α} {ys : List β} (h : List.Forall₂ R xs ys)
    {i : Nat} {x : α} (hx : xs[i]? = some x) :
    ∃ y, ys[i]? = some y ∧ R x y ∧ ∀ x', R x' y → List.Forall₂ R (xs.set i x') ys := by
  induction h generalizing i with
  | nil => cases hx
  | @cons a b xs ys hab hrest ih =>
    cases i with
    | zero =>
      obtain rfl := Option.some.inj hx
      exact ⟨b, rfl, hab, fun x' hx' => .cons hx' hrest⟩
    | succ i =>
      obtain ⟨y, hat, hy, hset⟩ := ih hx
      exact ⟨y, hat, hy, fun x' hx' => .cons hab (hset x' hx')⟩

/-- The worker heads for the result: that is what its work comes to by itself. -/
inductive Worker.Heads (r : Runner W) (context : Context) : Worker → FeatureResult → Prop
  | waiting {p : PlannedFeature} {f : FeatureResult}
      (h : r.Solo (r.options.runFeature p) context.fork f) : Heads r context (.waiting p) f
  | busy {found : Context} {rest : Work FeatureResult} {f : FeatureResult}
      (h : r.Solo rest found f) : Heads r context (.busy found rest) f
  | finished (f : FeatureResult) : Heads r context (.finished f) f

/-- No worker of the crew stops the run, and each heads for its result. -/
structure Crew.Heads (r : Runner W) (context : Context) (fs : List FeatureResult) (c : Crew W) :
    Prop where
  calm : c.isStopped = false
  workers : List.Forall₂ (Worker.Heads r context) c.workers fs

namespace Crew

variable {r : Runner W} {context : Context} {fs : List FeatureResult} {c : Crew W}

theorem Heads.act (h : c.Heads r context fs) (i : Nat) :
    (c.act r context i).Heads r context fs := by
  rcases c.act_cases r context i with ⟨p, hi, -, hact⟩ | ⟨found, q, next, hi, hact⟩ |
    ⟨found, result, hi, hact⟩ | hact
  · rw [hact]
    obtain ⟨f, -, hf, hset⟩ := exists_partner h.workers hi
    cases hf with
    | waiting hsolo => exact ⟨h.calm, hset _ (.busy hsolo)⟩
  · rw [hact]
    obtain ⟨f, -, hf, hset⟩ := exists_partner h.workers hi
    cases hf with
    | busy hsolo =>
      cases hsolo with
      | ask calm rest =>
        have hcalm := calm (c.stage found []) rfl h.calm
        exact ⟨hcalm, hset _ (.busy (rest (c.stage found []) rfl h.calm))⟩
  · rw [hact]
    obtain ⟨f, -, hf, hset⟩ := exists_partner h.workers hi
    cases hf with
    | busy hsolo =>
      cases hsolo
      exact ⟨h.calm, hset _ (.finished result)⟩
  · rw [hact]
    exact h

/-- Once all features are finished, they have the results that their workers headed for. -/
theorem Heads.results (h : c.Heads r context fs) {fs' : List FeatureResult}
    (hfs' : c.results? = some fs') : fs' = fs := by
  have hworkers := h.workers
  rw [workers_eq_of_results? hfs', List.forall₂_map_left_iff] at hworkers
  rw [← List.forall₂_eq_eq_eq]
  refine hworkers.imp fun f f' hf => ?_
  cases hf
  rfl

end Crew

namespace Runner

variable {r : Runner W}

theorem perform_runFeatures_cons (p : PlannedFeature) (rest : List PlannedFeature) (s : Stage W) :
    r.perform (r.options.runFeatures (p :: rest)) s =
      ((r.perform (r.options.runFeatures rest) (r.perform (r.options.runFeature p) s).1).1,
        (r.perform (r.options.runFeature p) s).2 ::
          (r.perform (r.options.runFeatures rest) (r.perform (r.options.runFeature p) s).1).2) := by
  refine (r.perform_bind (r.options.runFeature p) _ s).trans ?_
  exact r.perform_bind (r.options.runFeatures rest) _ _

/-- User code that is called in a feature changes no value of the suite in place. -/
def Spares (r : Runner W) (past : List Deed) : Prop :=
  ∀ d ∈ past, .feature ∈ d.found.levels → ∀ world, .suite ∉ r.touches world d.found d.request

instance [Fintype W] (r : Runner W) (past : List Deed) : Decidable (r.Spares past) :=
  inferInstanceAs <| Decidable <| ∀ d ∈ past, .feature ∈ d.found.levels →
    ∀ world, .suite ∉ r.touches world d.found d.request

theorem Spares.mono {past earlier : List Deed} (h : r.Spares past)
    (hsub : ∀ d ∈ earlier, d ∈ past) : r.Spares earlier :=
  fun d hd => h d (hsub d hd)

end Runner

/-- The context is as the opening of a run leaves it, with the layer of the suite alone over the
empty root. -/
structure Context.Opened (l : Layer) (c : Context) : Prop where
  level : l.level = .suite
  layers : c.layers = [l, .empty .root]
  output : c.output = .empty

namespace Runner

variable {r : Runner W}

/-- A run in order is an opening, the features one after the other, and a closing. -/
theorem run_eq {suite : Suite} {world : W} {cancelled : Bool} (hvalid : suite.violation? = none)
    {s : Stage W} {opening : Opening} {features : Work (List FeatureResult)}
    (hopen : r.perform r.options.openRun (.start world cancelled) = (s, opening))
    (hfeatures : features =
      if opening.fatal.isSome then pure ((r.options.plan suite).features.map (·.skipped))
      else r.options.runFeatures (r.options.plan suite).features) :
    r.run suite world cancelled =
      r.finish opening (r.perform features s).1 (r.perform features s).2 := by
  have hplan : r.perform (r.options.runPlan (r.options.plan suite)) (.start world cancelled) =
      r.perform (r.options.closeRun opening (r.perform features s).2) (r.perform features s).1 := by
    refine (r.perform_bind r.options.openRun _ _).trans ?_
    rw [hopen]
    dsimp only
    rw [← hfeatures]
    exact r.perform_bind features _ s
  rw [run, hvalid]
  dsimp only
  rw [hplan]
  rfl

section Discreet

variable (hr : r.Discreet) (hkeeps : r.Faithful)
include hr hkeeps

/-- `Work.Orderly.solo` over the root alone, which holds no values that could be changed. -/
theorem solo_root {w : Work α} {outer : ScopeLevel} {a b : Scopes}
    (h : w.Orderly outer a b) {s : Stage W} {c : Context}
    (htwin : Context.Twin [.empty .root] [.empty .root] a s.context c)
    (hcalm : (r.perform w s).1.isStopped = false) :
    r.Solo w c (r.perform w s).2 ∧
      ∃ c', Context.Twin [.empty .root] [.empty .root] b (r.perform w s).1.context c' := by
  refine h.solo hr hkeeps rfl (List.cons_ne_nil _ _) htwin (fun d _ _ world l hl => ?_) hcalm
  obtain rfl := List.mem_singleton.1 hl
  exact .inl rfl

theorem exists_opened (world : W) (cancelled : Bool)
    (hcalm : (r.perform r.options.openRun (.start world cancelled)).1.isStopped = false) :
    ∃ l, (r.perform r.options.openRun (.start world cancelled)).1.context.Opened l := by
  have htwin : Context.Twin [.empty .root] [.empty .root] ⟨[], false⟩ .fresh .fresh :=
    ⟨⟨[], rfl, rfl, rfl⟩, rfl, rfl, Bool.noConfusion⟩
  obtain ⟨-, c, hend⟩ := solo_root hr hkeeps (Work.orderly_openRun r.options) htwin hcalm
  obtain ⟨ls, hlevels, hlayers, -⟩ := hend.layers
  obtain ⟨l, rest, rfl, hl, hrest⟩ := List.map_eq_cons_iff.1 hlevels
  obtain rfl := List.map_eq_nil_iff.1 hrest
  exact ⟨l, hl, hlayers, hend.output⟩

/-- The work on a feature does the same by itself on a copy of the context, and leaves the context
as it has found it. -/
theorem solo_feature {p : PlannedFeature} {s : Stage W} {c : Context} {l : Layer}
    (hs : s.context.Opened l) (hc : c.Opened l)
    (hspared : r.Spares (r.perform (r.options.runFeature p) s).1.past)
    (hcalm : (r.perform (r.options.runFeature p) s).1.isStopped = false) :
    r.Solo (r.options.runFeature p) c.fork (r.perform (r.options.runFeature p) s).2 ∧
      (r.perform (r.options.runFeature p) s).1.context.Opened l := by
  have htwin : Context.Twin s.context.layers c.fork.layers ⟨[], false⟩ s.context c.fork :=
    ⟨⟨[], rfl, rfl, rfl⟩, hs.output, rfl, Bool.noConfusion⟩
  have hbase : c.fork.layers.map Layer.unshared = s.context.layers.map Layer.unshared := by
    rw [hs.layers, Context.fork, hc.layers]
    rfl
  have hne : s.context.layers ≠ [] := by
    rw [hs.layers]
    exact List.cons_ne_nil _ _
  obtain ⟨hsolo, c', hend⟩ := (Work.orderly_runFeature r.options p).solo hr hkeeps hbase hne htwin
    (fun d hd hin world l' hl' => by
      rw [hs.layers] at hl'
      rcases List.mem_pair.1 hl' with rfl | rfl
      · rw [hs.level]
        exact .inr (hspared d hd hin world)
      · exact .inl rfl) hcalm
  obtain ⟨ls, hlevels, hlayers, -⟩ := hend.layers
  obtain rfl := List.map_eq_nil_iff.1 hlevels
  exact ⟨hsolo, hs.level, hlayers.trans hs.layers, hend.output⟩

/-- A run in order shows what the work on each feature comes to by itself. -/
theorem solo_features {ps : List PlannedFeature} {s : Stage W} {c : Context}
    {l : Layer} (hs : s.context.Opened l) (hc : c.Opened l)
    (hspared : r.Spares (r.perform (r.options.runFeatures ps) s).1.past)
    (hcalm : (r.perform (r.options.runFeatures ps) s).1.isStopped = false) :
    List.Forall₂ (fun p f => r.Solo (r.options.runFeature p) c.fork f) ps
        (r.perform (r.options.runFeatures ps) s).2 ∧
      (r.perform (r.options.runFeatures ps) s).1.context.Opened l := by
  induction ps generalizing s with
  | nil => exact ⟨.nil, hs⟩
  | cons p rest ih =>
    rw [perform_runFeatures_cons] at hspared hcalm ⊢
    obtain ⟨hsolo, hbetween⟩ := solo_feature hr hkeeps hs hc
      (hspared.mono fun d => r.mem_past_perform (r.options.runFeatures rest))
      (r.calm_of_perform (r.options.runFeatures rest) hcalm)
    obtain ⟨hrest, hend⟩ := ih hbetween hspared hcalm
    exact ⟨.cons hsolo hrest, hend⟩

/-- The closing of a run comes to the same on stages that have the same layers. -/
theorem finish_eq {opening : Opening} {fs : List FeatureResult}
    {s s' : Stage W} {l : Layer} (hs : s.context.Opened l) (hs' : s'.context.Opened l)
    (hcalm' : s'.isStopped = false) (hcalm : (r.finish opening s fs).stage.isStopped = false) :
    (r.finish opening s' fs).result = (r.finish opening s fs).result := by
  have htwin : Context.Twin [.empty .root] [.empty .root] ⟨[.suite], false⟩ s.context s'.context :=
    ⟨⟨[l], by rw [List.map_singleton, hs.level], hs.layers, hs'.layers⟩, hs.output, hs'.output,
      Bool.noConfusion⟩
  obtain ⟨hsolo, -⟩ := solo_root hr hkeeps (Work.orderly_closeRun r.options opening fs) htwin hcalm
  exact congrArg (Except.mapError RunError.fatal) (hsolo.perform rfl hcalm')

/-- While a run in order is not stopped, every crew that takes over from its opening heads for its
results. -/
theorem heads_start {ps : List PlannedFeature} {s : Stage W} {l : Layer}
    (hs : s.context.Opened l) (hspared : r.Spares (r.perform (r.options.runFeatures ps) s).1.past)
    (hcalm : (r.perform (r.options.runFeatures ps) s).1.isStopped = false) :
    (Crew.start s ps).Heads r s.context (r.perform (r.options.runFeatures ps) s).2 where
  calm := r.calm_of_perform (r.options.runFeatures ps) hcalm
  workers := List.forall₂_map_left_iff.2 <|
    (solo_features hr hkeeps hs hs hspared hcalm).1.imp fun _ _ hsolo => .waiting hsolo

/-- A run by a schedule that ends has the result of the run in order. -/
theorem runBy_eq {suite : Suite} {world : W} {cancelled : Bool}
    (hspared : r.Spares (r.run suite world cancelled).stage.past)
    (hcalm : (r.run suite world cancelled).stage.isStopped = false)
    {schedule : List Nat} {e : Ended W}
    (h : r.runBy? suite world cancelled schedule = some e) :
    e.result = (r.run suite world cancelled).result := by
  cases hvalid : suite.violation? with
  | some m =>
    rw [runBy?, hvalid] at h
    rw [run, hvalid]
    exact congrArg Ended.result (Option.some.inj h).symm
  | none =>
    rcases hopen : r.perform r.options.openRun (.start world cancelled) with ⟨s, opening⟩
    rcases runBy_cases hvalid hopen h with ⟨hfatal, rfl⟩ | ⟨hfatal, fs, hfs, rfl⟩
    · rw [run_eq hvalid hopen (if_pos hfatal).symm]
      rfl
    · rw [run_eq hvalid hopen (if_neg (Bool.eq_false_iff.1 hfatal)).symm] at hspared hcalm ⊢
      generalize (r.options.plan suite).features = ps at *
      have hfeatures : (r.perform (r.options.runFeatures ps) s).1.isStopped = false :=
        r.calm_of_perform (r.options.closeRun opening _) hcalm
      obtain ⟨l, hl⟩ := exists_opened hr hkeeps world cancelled (by
        rw [hopen]
        exact r.calm_of_perform (r.options.runFeatures ps) hfeatures)
      rw [hopen] at hl
      have hspared' := hspared.mono fun d => r.mem_past_perform (r.options.closeRun opening _)
      have hheads := Crew.follow_preserves (P := fun c => c.Heads r s.context _)
        (fun c i hc => hc.act i) (heads_start hr hkeeps hl hspared' hfeatures) schedule
      rw [hheads.results hfs]
      obtain ⟨-, hend⟩ := solo_features hr hkeeps hl hl hspared' hfeatures
      exact finish_eq hr hkeeps hend hl hheads.calm hcalm

end Discreet

/-- Every schedule can be continued to one by which the run ends. -/
theorem exists_continuation (r : Runner W) (suite : Suite) (world : W) (cancelled : Bool)
    (schedule : List Nat) :
    ∃ rest e, r.runBy? suite world cancelled (schedule ++ rest) = some e := by
  unfold runBy?
  cases suite.violation? with
  | some m => exact ⟨[], _, rfl⟩
  | none =>
    dsimp only
    rcases r.perform r.options.openRun (.start world cancelled) with ⟨s, opening⟩
    dsimp only
    split
    · exact ⟨[], _, rfl⟩
    · obtain ⟨rest, fs, hfs⟩ := Crew.exists_finish r s.context
        (Crew.follow r s.context schedule (.start s (r.options.plan suite).features))
      rw [← Crew.follow_append] at hfs
      exact ⟨rest, _, congrArg (Option.map _) hfs⟩

/-- If the run in order is not stopped, user code is discreet and goes to the context through its
methods, and no code called in a feature, its own hooks included, changes a value of the suite in
place, then a parallel run has the result of the run in order, whatever the order in which its
workers proceed. -/
theorem parallel_agrees {W : Type} (r : Runner W) (hr : r.Discreet) (hkeeps : r.Faithful)
    (suite : Suite) (world : W) (cancelled : Bool)
    (hspared : r.Spares (r.run suite world cancelled).stage.past)
    (hcalm : (r.run suite world cancelled).stage.isStopped = false) :
    (r.runParallel suite world cancelled).result = (r.run suite world cancelled).result ∧
      ∀ schedule : List Nat,
        (∀ e, r.runBy? suite world cancelled schedule = some e →
          e.result = (r.run suite world cancelled).result) ∧
        ∃ rest e, r.runBy? suite world cancelled (schedule ++ rest) = some e := by
  refine ⟨?_, fun schedule => ⟨fun e he => runBy_eq hr hkeeps hspared hcalm he, ?_⟩⟩
  · obtain ⟨schedule, hschedule⟩ := r.exists_schedule suite world cancelled
    exact runBy_eq hr hkeeps hspared hcalm hschedule
  · exact r.exists_continuation suite world cancelled schedule

/-- A runner with hooks alone, for two features at a time. -/
def pairing (hooks : Hooks W) : Runner W :=
  ⟨.empty, hooks, { RunOptions.default with jobs := 2 }, "rehearsal"⟩

theorem discreet_faithful_pairing {hooks : Hooks W}
    (h : ∀ hook ∈ hooks.hooks, ∀ event, (hook.call event).Plain) :
    (pairing hooks).Discreet ∧ (pairing hooks).Faithful :=
  ⟨⟨fun hook hmem event => (h hook hmem event).discreet _, fun d hd => by cases hd⟩,
    ⟨fun hook hmem event => (h hook hmem event).faithful, fun d hd => by cases hd⟩⟩

/-- Two features count their scenarios, each for itself, and look for a value of the suite. -/
theorem parallel_agrees_counting :
    let hooks : Hooks Unit := ⟨[
      ⟨.beforeAll, fun _ => .set "base" (.int 7) fun _ => .done .ok⟩,
      ⟨.beforeFeature, fun _ => .set "count" (.int 0) fun _ => .done .ok⟩,
      ⟨.beforeScenario, fun _ => .look fun v =>
        .done (if (v.find? "base").isSome then .ok else .error "lost" false)⟩,
      ⟨.afterScenario, fun _ => .update "count" .int (fun n : Int => n + 1) fun _ => .done .ok⟩]⟩
    let r := pairing hooks
    let feature (name : String) : Feature := { Feature.named name with
      children := [.definition (.scenario (.named "first")),
        .definition (.scenario (.named "second"))] }
    let suite : Suite := ⟨[feature "left", feature "right"]⟩
    (r.run suite () false).result.toOption.any (·.status == .passed) = true ∧
      (r.runParallel suite () false).result = (r.run suite () false).result := by
  intro hooks r feature suite
  have hplain : ∀ hook ∈ hooks.hooks, ∀ event, (hook.call event).Plain := by
    simp only [hooks, List.forall_mem_cons]
    exact ⟨fun _ _ => trivial, fun _ _ => trivial, fun _ => ⟨fun _ _ _ => rfl, fun _ => trivial⟩,
      fun _ _ => trivial, fun _ h => by cases h⟩
  obtain ⟨hdiscreet, hfaithful⟩ : r.Discreet ∧ r.Faithful := discreet_faithful_pairing hplain
  exact ⟨by decide,
    (r.parallel_agrees hdiscreet hfaithful suite () false (by decide) (by decide)).1⟩

def statuses? (e : Ended W) : Option (List Status) :=
  e.result.toOption.map fun result => result.features.map (·.status)

/-- A parallel run may come to another result if a hook puts a new context in the place of its own,
if user code shares a cell whose handle is a value of the suite, or if a hook before a feature
changes a value of the suite in place. The runs in order are not stopped, and what else is asked for
in `parallel_agrees` holds of them. -/
theorem parallel_differs :
    let feature (name : String) : Feature := { Feature.named name with
      children := [.definition (.scenario (.named "scenario"))] }
    let suite : Suite := ⟨[feature "left", feature "right"]⟩
    let replacing : Runner Unit := pairing ⟨[
      ⟨.beforeAll, fun _ => .set "base" (.int 7) fun _ => .done .ok⟩,
      ⟨.beforeFeature, fun event =>
        if event.name = "left" then .exchange (fun w _ => (w, .fresh)) fun _ => .done .ok
        else .done .ok⟩,
      ⟨.beforeScenario, fun _ => .look fun v =>
        .done (if (v.find? "base").isSome then .ok else .error "lost" false)⟩]⟩
    -- the world is a cell that counts up to two, and its handle is the value of the suite
    let sharing : Runner (Fin 3) := pairing ⟨[
      ⟨.beforeAll, fun _ => .set "cell" (.int 0) fun _ => .done .ok⟩,
      ⟨.beforeScenario, fun _ => .look fun v =>
        if (v.find? "cell").isSome then
          .world (· + 1) fun n => .done (if n = 1 then .ok else .error "late" false)
        else .done .ok⟩]⟩
    let changing : Runner Unit := pairing ⟨[
      ⟨.beforeAll, fun _ => .set "count" (.int 0) fun _ => .done .ok⟩,
      ⟨.beforeFeature, fun _ => .update "count" .int (fun n : Int => n + 1) fun _ => .done .ok⟩,
      ⟨.beforeScenario, fun _ => .look fun v =>
        .done (if (v.find? "count").any (·.2.datum == .int 0) then .ok
          else .error "counted" false)⟩]⟩
    (replacing.Discreet ∧ replacing.Spares (replacing.run suite () false).stage.past ∧
      (replacing.run suite () false).stage.isStopped = false ∧
      statuses? (replacing.run suite () false) = some [.error, .error] ∧
      statuses? (replacing.runParallel suite () false) = some [.error, .passed]) ∧
    (sharing.Faithful ∧ sharing.Spares (sharing.run suite 0 false).stage.past ∧
      (sharing.run suite 0 false).stage.isStopped = false ∧
      statuses? (sharing.run suite 0 false) = some [.passed, .error] ∧
      ∃ schedule e, sharing.runBy? suite 0 false schedule = some e ∧
        statuses? e = some [.error, .passed]) ∧
    changing.Discreet ∧ changing.Faithful ∧
      (changing.run suite () false).stage.isStopped = false ∧
      statuses? (changing.run suite () false) = some [.error, .error] ∧
      statuses? (changing.runParallel suite () false) = some [.passed, .passed] := by
  intro feature suite replacing sharing changing
  have hreplacing : replacing.Discreet := by
    refine ⟨?_, fun d hd => by cases hd⟩
    simp only [replacing, pairing, List.forall_mem_cons]
    refine ⟨fun _ => Script.Plain.discreet ?_ _, fun event => ?_,
      fun _ => Script.Plain.discreet ?_ _, fun _ h => by cases h⟩
    · exact fun _ => trivial
    · split
      · exact Script.discreet_exchange (Script.discreet_done _ _) _
      · exact Script.discreet_done _ _
    · exact ⟨fun _ _ _ => rfl, fun _ => trivial⟩
  have hsharing : sharing.Faithful := by
    refine ⟨?_, fun d hd => by cases hd⟩
    simp only [sharing, pairing, List.forall_mem_cons]
    refine ⟨fun _ _ => trivial, fun _ v => ?_, fun _ h => by cases h⟩
    dsimp only
    split
    · exact fun _ => trivial
    · trivial
  obtain ⟨hdiscreet, hfaithful⟩ : changing.Discreet ∧ changing.Faithful := by
    refine discreet_faithful_pairing ?_
    simp only [List.forall_mem_cons]
    exact ⟨fun _ _ => trivial, fun _ _ => trivial, fun _ => ⟨fun _ _ _ => rfl, fun _ => trivial⟩,
      fun _ h => by cases h⟩
  refine ⟨⟨hreplacing, by decide, by decide, by decide, by decide⟩,
    ⟨hsharing, by decide, by decide, by decide, ?_⟩,
    hdiscreet, hfaithful, by decide, by decide, by decide⟩
  -- the second worker overtakes the first one as soon as both are at work
  refine ⟨0 :: List.replicate 14 1 ++ List.replicate 14 0, Option.map_eq_some_iff.1 ?_⟩
  decide

end Runner

end Rehearsal
