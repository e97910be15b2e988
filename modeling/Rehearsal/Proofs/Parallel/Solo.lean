import Rehearsal.Proofs.Course
import Rehearsal.Proofs.Parallel.Discreet
import Rehearsal.Proofs.Parallel.Orderly

/-!
# Work that is done the same by itself

`Runner.Solo` says that some work, begun in a context, comes to a result whatever is done beside
it, and never stops the run. `Work.Orderly.solo` finds such work: orderly work that was done once
without stopping the run does the same again, on the same ground or on a copy of it, if user code
is discreet and faithful and spares the ground.
-/

namespace Rehearsal

/-- The work comes to the result from the context, whatever the stage is like otherwise, and does
not stop the run. -/
inductive Runner.Solo (r : Runner W) : Work α → Context → α → Prop
  | done (a : α) (c : Context) : Solo r (.done a) c a
  | ask {q : Request} {next : q.Reply → Work α} {c : Context} {a : α}
      (calm : ∀ s : Stage W, s.context = c → s.isStopped = false →
        (r.answer s q).1.isStopped = false)
      (rest : ∀ s : Stage W, s.context = c → s.isStopped = false →
        Solo r (next (r.answer s q).2) (r.answer s q).1.context a) :
      Solo r (.ask q next) c a

theorem Runner.Solo.perform {r : Runner W} {w : Work α} {c : Context} {a : α}
    (h : r.Solo w c a) {s : Stage W} (hs : s.context = c) (hcalm : s.isStopped = false) :
    (r.perform w s).2 = a := by
  induction h generalizing s with
  | done a c => rfl
  | @ask q next c a calm rest ih =>
    exact ih s hs hcalm rfl (calm s hs hcalm)

theorem Runner.Solo.isStopped_perform {r : Runner W} {w : Work α} {c : Context} {a : α}
    (h : r.Solo w c a) {s : Stage W} (hs : s.context = c) (hcalm : s.isStopped = false) :
    (r.perform w s).1.isStopped = false := by
  induction h generalizing s with
  | done a c => exact hcalm
  | @ask q next c a calm rest ih =>
    exact ih s hs hcalm rfl (calm s hs hcalm)

/-- The contexts are the same but for the ground on which the work has opened its scopes, and for
the switches unless the work has set them. -/
structure Context.Twin (base base' : List Layer) (s : Scopes) (c c' : Context) : Prop where
  layers : ∃ ls : List Layer, ls.map (·.level) = s.levels ∧ c.layers = ls ++ base ∧
    c'.layers = ls ++ base'
  output : c.output = .empty
  output' : c'.output = .empty
  control : s.steered = true → s.levels.head? = some .scenario ∧ c'.control = c.control

/-- The levels of the values that user code tries to change in place when the request is answered
in the context. -/
def Runner.touches (r : Runner W) (world : W) (found : Context) : Request → List ScopeLevel
  | .hooks event => (r.hooks.call event).touches r.ownTarget ⟨world, found, false, ""⟩
  | .call m step => (r.registry.call m step).touches r.ownTarget ⟨world, found, false, ""⟩
  | _ => []

namespace Context

theorem exists_ownAll (level : ScopeLevel) (values : List (String × Datum)) :
    ∃ l : Layer, l.level = level ∧
      ∀ c : Context, (c.push level).ownAll values = c.withLayers (l :: c.layers) := by
  suffices h : ∀ l : Layer, ∃ l' : Layer, l'.level = l.level ∧ ∀ c : Context,
      (c.withLayers (l :: c.layers)).ownAll values = c.withLayers (l' :: c.layers) from
    h (.empty level)
  induction values with
  | nil => exact fun l => ⟨l, rfl, fun c => rfl⟩
  | cons v rest ih =>
    intro l
    obtain ⟨l', hlevel, hrest⟩ := ih (l.put v.1 ⟨v.2, .runner⟩)
    exact ⟨l', hlevel, hrest⟩

/-- Leaving a scope changes nothing but the layers. -/
theorem exists_pop (c : Context) : ∃ ls, c.pop = c.withLayers ls := by
  unfold pop
  split
  · exact ⟨_, rfl⟩
  · exact ⟨c.layers, rfl⟩

theorem layers_pop {c : Context} {l : Layer} {rest : List Layer} (h : c.layers = l :: rest)
    (hne : rest ≠ []) : c.pop = c.withLayers rest := by
  obtain ⟨l', rest', rfl⟩ := List.exists_cons_of_ne_nil hne
  unfold pop
  rw [h]
  rfl

theorem level_withLayers {ls base : List Layer} (c : Context) (hne : ls ≠ []) (level : ScopeLevel) :
    (c.withLayers (ls ++ base)).level = level ↔ (ls.map (·.level)).head? = some level := by
  obtain ⟨l, rest, rfl⟩ := List.exists_cons_of_ne_nil hne
  exact (Option.some.injEq l.level level).to_iff.symm

/-- The work has opened other scopes on the ground and on its copy. -/
theorem Twin.withLayers {base base' : List Layer} {s : Scopes} {c c' : Context}
    (h : Twin base base' s c c') {ls : List Layer} {levels : List ScopeLevel}
    (hlevels : ls.map (·.level) = levels) :
    Twin base base' ⟨levels, false⟩ (c.withLayers (ls ++ base)) (c'.withLayers (ls ++ base')) where
  layers := ⟨ls, hlevels, rfl, rfl⟩
  output := h.output
  output' := h.output'
  control := Bool.noConfusion

end Context

theorem Stage.isStopped_eq_false {s : Stage W} :
    s.isStopped = false ↔ s.cancelled = false ∧ s.stopped = false :=
  Bool.or_eq_false_iff

/-- Neither stage is to stop, and the contexts are the same but for the ground. -/
structure Stage.Twin (base base' : List Layer) (scopes : Scopes) (s s' : Stage W) : Prop where
  context : Context.Twin base base' scopes s.context s'.context
  calm : s.isStopped = false
  calm' : s'.isStopped = false

namespace Runner

variable {r : Runner W} {base base' : List Layer} {outer : ScopeLevel} {scopes : Scopes}
  {s s' : Stage W}

/-- Discreet user code that spares the ground does the same on a copy of it. -/
theorem carryOut_twin {script : Script W α} (hscript : script.Discreet r.ownTarget)
    (hfaithful : script.Faithful)
    (hbase : base'.map Layer.unshared = base.map Layer.unshared) (hready : scopes.Ready outer)
    (htwin : s.Twin base base' scopes s')
    (hspared : ∀ l ∈ base, l.values = [] ∨
      l.level ∉ script.touches r.ownTarget ⟨s.world, s.context, false, ""⟩)
    (hcalm : (s.carryOut r.ownTarget script).1.isStopped = false) :
    (s'.carryOut r.ownTarget script).2 = (s.carryOut r.ownTarget script).2 ∧
      (s.carryOut r.ownTarget script).1.Twin base base' scopes
        (s'.carryOut r.ownTarget script).1 := by
  obtain ⟨ls, hlevels, hlayers, hlayers'⟩ := htwin.context.layers
  obtain ⟨hcancelled, -⟩ := Stage.isStopped_eq_false.1 htwin.calm
  obtain ⟨hcancelled', hstopped'⟩ := Stage.isStopped_eq_false.1 htwin.calm'
  have hne : ls ≠ [] := by
    rintro rfl
    have hinside := hready.inside
    rw [← hlevels] at hinside
    cases hinside
  let m : Moment W := ⟨s.world, s.context, s.cancelled, ""⟩
  let m' : Moment W := ⟨s'.world, s'.context, s'.cancelled, ""⟩
  have halike : (m.withLayers (ls ++ base')).Alike m' := by
    have houtput : s'.context.output = s.context.output :=
      htwin.context.output'.trans htwin.context.output.symm
    refine ⟨hlayers', houtput, fun hlevel => ?_, hcancelled'.trans hcancelled.symm, rfl⟩
    rw [Moment.withLayers, Context.level_withLayers _ hne, hlevels] at hlevel
    exact (htwin.context.control (hready.steered hlevel)).2
  rw [← hcancelled] at hspared
  obtain ⟨ls₁, hlevels₁, hlayers₁, hvalue, hafter⟩ :=
    hscript.play_twin hfaithful hbase (m := m) hne hlayers halike hspared
  have hne₁ := Context.ne_nil_of_levels hlevels₁ hne
  have houtput : (script.play r.ownTarget m').1.context.output =
      (script.play r.ownTarget m).1.context.output := hafter.output
  have hlog : (script.play r.ownTarget m').1.log = (script.play r.ownTarget m).1.log := hafter.log
  refine ⟨Prod.ext hvalue ?_, ⟨?_, rfl, rfl, ?_⟩, hcalm, ?_⟩
  · simp only [Stage.carryOut]
    rw [houtput, hlog]
  · exact ⟨ls₁, hlevels₁.trans hlevels, hlayers₁, hafter.layers⟩
  · intro hsteered
    obtain ⟨hhead, -⟩ := htwin.context.control hsteered
    refine ⟨hhead, hafter.control ?_⟩
    rw [Moment.withLayers, Context.level_withLayers _ hne₁, hlevels₁, hlevels]
    exact hhead
  · obtain ⟨hcalm, -⟩ := Stage.isStopped_eq_false.1 hcalm
    exact Stage.isStopped_eq_false.2 ⟨hafter.cancelled.trans hcalm, hstopped'⟩

/-- Orderly requests are answered in the same way on the ground and on a copy of it, unless the
run is stopped. -/
theorem answer_twin (hr : r.Discreet) (hfaithful : r.Faithful)
    (hbase : base'.map Layer.unshared = base.map Layer.unshared)
    (hne : base ≠ []) {q : Request} (hfits : q.Fits outer scopes)
    (htwin : s.Twin base base' scopes s')
    (hspared : outer ∈ s.context.levels →
      ∀ l ∈ base, l.values = [] ∨ l.level ∉ r.touches s.world s.context q)
    (hcalm : (r.answer s q).1.isStopped = false) :
    (r.answer s' q).2 = (r.answer s q).2 ∧
      (r.answer s q).1.Twin base base' (q.scopes scopes) (r.answer s' q).1 := by
  obtain ⟨ls, hlevels, hlayers, hlayers'⟩ := htwin.context.layers
  have hinside : outer ∈ scopes.levels → outer ∈ s.context.levels := by
    intro h
    rw [Context.levels, hlayers, List.map_append, hlevels]
    exact List.mem_append_left _ h
  cases q with
  | enter level values =>
    obtain ⟨l, rfl, hpush⟩ := Context.exists_ownAll level values
    have hcontext : (r.answer s (.enter l.level values)).1.context =
        s.context.withLayers (l :: ls ++ base) := by
      rw [List.cons_append, ← hlayers]
      exact hpush s.context
    have hcontext' : (r.answer s' (.enter l.level values)).1.context =
        s'.context.withLayers (l :: ls ++ base') := by
      rw [List.cons_append, ← hlayers']
      exact hpush s'.context
    refine ⟨rfl, ?_, htwin.calm, htwin.calm'⟩
    rw [hcontext, hcontext']
    exact htwin.context.withLayers (congrArg (l.level :: ·) hlevels)
  | leave =>
    cases ls with
    | nil => exact absurd hlevels.symm hfits
    | cons l rest =>
      have hne' : base' ≠ [] := by
        rintro rfl
        exact hne (List.map_eq_nil_iff.1 hbase.symm)
      have hcontext : (r.answer s .leave).1.context = s.context.withLayers (rest ++ base) :=
        Context.layers_pop hlayers (List.append_ne_nil_of_right_ne_nil rest hne)
      have hcontext' : (r.answer s' .leave).1.context = s'.context.withLayers (rest ++ base') :=
        Context.layers_pop hlayers' (List.append_ne_nil_of_right_ne_nil rest hne')
      refine ⟨rfl, ?_, htwin.calm, htwin.calm'⟩
      rw [hcontext, hcontext']
      exact htwin.context.withLayers (congrArg List.tail hlevels)
  | reset b =>
    obtain ⟨⟨hlayers, houtput, houtput', -⟩, hs, hs'⟩ := htwin
    exact ⟨rfl, ⟨hlayers, houtput, houtput', fun _ => ⟨hfits, rfl⟩⟩, hs, hs'⟩
  | control => exact ⟨(htwin.context.control hfits).2, htwin⟩
  | isStopped => exact ⟨htwin.calm'.trans htwin.calm.symm, htwin⟩
  | stop => exact absurd (Stage.isStopped_eq_false.1 hcalm).2 Bool.noConfusion
  | find step => exact ⟨rfl, htwin⟩
  | hooks event =>
    obtain ⟨hreply, hafter⟩ := carryOut_twin (hr.hooks_call event)
      (hfaithful.hooks_call event) hbase hfits htwin (hspared (hinside hfits.inside)) hcalm
    refine ⟨?_, hafter⟩
    exact congrArg (fun x : List Outcome × Captured => (⟨x.1, x.2⟩ : SlotReply)) hreply
  | call m step =>
    obtain ⟨hreply, hafter⟩ := carryOut_twin (hr.registry_call m step)
      (hfaithful.registry_call m step) hbase hfits htwin (hspared (hinside hfits.inside)) hcalm
    refine ⟨?_, hafter⟩
    exact congrArg (fun x : Outcome × Captured => (⟨x.1, x.2⟩ : CallReply)) hreply

/-- A run that is not to stop was not to stop before. -/
theorem calm_of_perform (r : Runner W) (w : Work α) {s : Stage W}
    (h : (r.perform w s).1.isStopped = false) : s.isStopped = false := by
  cases hs : s.isStopped with
  | false => rfl
  | true =>
    have hstop := r.isStopped_perform w s hs
    rw [h] at hstop
    cases hstop

theorem mem_past_perform (r : Runner W) (w : Work α) {s : Stage W} {d : Deed} (hd : d ∈ s.past) :
    d ∈ (r.perform w s).1.past := by
  obtain ⟨deeds, hpast, -⟩ := r.exists_way w s
  rw [hpast]
  exact List.mem_append_right _ hd

end Runner

/-- Orderly work that has been done without stopping the run does the same by itself, on the same
ground or on a copy of it. -/
theorem Work.Orderly.solo {r : Runner W} (hr : r.Discreet) (hfaithful : r.Faithful)
    {base base' : List Layer} (hbase : base'.map Layer.unshared = base.map Layer.unshared)
    (hne : base ≠ [])
    {outer : ScopeLevel} {w : Work α} {a b : Scopes} (h : w.Orderly outer a b) {s : Stage W}
    {c : Context} (htwin : Context.Twin base base' a s.context c)
    (hspared : ∀ d ∈ (r.perform w s).1.past, outer ∈ d.found.levels → ∀ world, ∀ l ∈ base,
      l.values = [] ∨ l.level ∉ r.touches world d.found d.request)
    (hcalm : (r.perform w s).1.isStopped = false) :
    r.Solo w c (r.perform w s).2 ∧
      ∃ c', Context.Twin base base' b (r.perform w s).1.context c' := by
  induction h generalizing s c with
  | done a scopes => exact ⟨.done a c, c, htwin⟩
  | @ask q next scopes t hfits rest ih =>
    have hafter : (r.answer s q).1.isStopped = false :=
      r.calm_of_perform (next (r.reply s q).2) (s := (r.reply s q).1) hcalm
    have hbefore : s.isStopped = false := r.calm_of_perform (.ask q next) hcalm
    have hmem : (⟨q, (r.answer s q).2, s.context, (r.answer s q).1.isStopped⟩ : Deed) ∈
        (r.perform (.ask q next) s).1.past :=
      r.mem_past_perform (next (r.reply s q).2) (s := (r.reply s q).1) List.mem_cons_self
    have hanswer : ∀ s' : Stage W, s'.context = c → s'.isStopped = false →
        (r.answer s' q).2 = (r.answer s q).2 ∧
          (r.answer s q).1.Twin base base' (q.scopes scopes) (r.answer s' q).1 := by
      rintro s' rfl hs'
      exact Runner.answer_twin hr hfaithful hbase hne hfits ⟨htwin, hbefore, hs'⟩
        (fun hin => hspared _ hmem hin s.world) hafter
    refine ⟨.ask (fun s' hc hs' => (hanswer s' hc hs').2.calm') fun s' hc hs' => ?_, ?_⟩
    · obtain ⟨hreply, htwin'⟩ := hanswer s' hc hs'
      rw [hreply]
      exact (ih (r.answer s q).2 (s := (r.reply s q).1) htwin'.context hspared hcalm).1
    · obtain ⟨-, htwin'⟩ := hanswer { s with context := c } rfl hbefore
      exact (ih (r.answer s q).2 (s := (r.reply s q).1) htwin'.context hspared hcalm).2

end Rehearsal
