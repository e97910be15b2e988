import Rehearsal.Proofs.Parallel.Ground
import Rehearsal.Run.Stage

/-!
# Discreet scripts

A script is discreet if it does the same whatever the world is like and, outside of scenarios,
however the switches are set: it goes by what it is called for and by the values that it sees.
Scripts that keep their context and do not read the world, nor the switches outside of scenarios,
are discreet (`Script.Plain.discreet`).
-/

namespace Rehearsal

/-- The moments differ at most in the world and, outside of scenarios, in the switches. -/
structure Moment.Alike (m m' : Moment W) : Prop where
  layers : m'.context.layers = m.context.layers
  output : m'.context.output = m.context.output
  control : m.context.level = .scenario → m'.context.control = m.context.control
  cancelled : m'.cancelled = m.cancelled
  log : m'.log = m.log

/-- The script does the same at moments that are alike. -/
def Script.Discreet (own : String) (s : Script W α) : Prop :=
  ∀ m m' : Moment W, m.Alike m' →
    (s.play own m').2 = (s.play own m).2 ∧ (s.play own m).1.Alike (s.play own m').1

/-- The script keeps its context, does not read the world, and reads the switches in scenarios
only. -/
def Script.Plain : Script W α → Prop
  | done _ => True
  | world _ next => (∀ w w', next w = next w') ∧ ∀ w, (next w).Plain
  | look next =>
    (∀ v b, v.level ≠ .scenario → next { v with continueAfterFailure := b } = next v) ∧
      ∀ v, (next v).Plain
  | set _ _ next => ∀ result, (next result).Plain
  | update _ _ _ next => ∀ x, (next x).Plain
  | output _ next => next.Plain
  | skipScenario _ next => next.Plain
  | continueAfterFailure _ next => next.Plain
  | log _ next => next.Plain
  | cancel next => next.Plain
  | exchange _ _ => False

theorem Context.level_of_levels {c c' : Context} (h : c'.levels = c.levels) :
    c'.level = c.level := by
  unfold levels at h
  unfold level
  cases hc : c.layers with
  | nil =>
    rw [hc, List.map_nil, List.map_eq_nil_iff] at h
    rw [h]
  | cons l rest =>
    rw [hc, List.map_cons] at h
    obtain ⟨l', rest', hc', hlevel, -⟩ := List.map_eq_cons_iff.1 h
    rw [hc']
    exact hlevel

def Context.under (c : Context) (control : Control) : Context := { c with control := control }

theorem Context.set_under (c : Context) (control : Control) (key : String) (d : Datum) :
    (c.under control).set key d = (c.set key d).map fun c => c.under control := by
  have hfind : (c.under control).find? key = c.find? key := rfl
  have hstore : ∀ s, (c.under control).store key s = (c.store key s).under control := by
    intro s
    obtain ⟨layers, output, before⟩ := c
    cases layers <;> rfl
  unfold set
  rw [hfind, hstore]
  split <;> rfl

theorem Context.update_under (c : Context) (control : Control) (key : String) (k : Datum.Kind)
    (f : k.Carrier → k.Carrier) :
    (c.under control).update key k f =
      ((c.update key k f).1.under control, (c.update key k f).2) := by
  unfold update under
  dsimp only
  split <;> rfl

theorem Context.control_store (c : Context) (key : String) (s : Stored) :
    (c.store key s).control = c.control := by
  unfold store
  cases c.layers <;> rfl

theorem Context.control_update (c : Context) (key : String) (k : Datum.Kind)
    (f : k.Carrier → k.Carrier) : (c.update key k f).1.control = c.control := by
  unfold update
  split <;> rfl

namespace Moment.Alike

variable {m m' : Moment W}

theorem context_eq (h : m.Alike m') : m'.context = m.context.under m'.context.control := by
  cases hm : m.context
  cases hm' : m'.context
  have hlayers := h.layers
  have houtput := h.output
  rw [hm, hm'] at hlayers houtput
  simp only at hlayers houtput
  rw [hlayers, houtput]
  rfl

/-- Alike moments stay so when the layers change in the same way. -/
theorem change (h : m.Alike m') {c : Context} (hlevels : c.levels = m.context.levels)
    (hcontrol : c.control = m.context.control) :
    Moment.Alike { m with context := c }
      { m' with context := c.under m'.context.control } where
  layers := rfl
  output := rfl
  control := by
    intro hlevel
    exact (h.control ((Context.level_of_levels hlevels).symm.trans hlevel)).trans hcontrol.symm
  cancelled := h.cancelled
  log := h.log

/-- Outside of scenarios, views of alike moments differ at most in the switch they show. -/
theorem view (h : m.Alike m') :
    ∃ b, m'.context.view = { m.context.view with continueAfterFailure := b } ∧
      (m.context.level = .scenario → b = m.context.view.continueAfterFailure) := by
  refine ⟨m'.context.control.continueAfterFailure, ?_, ?_⟩
  · simp only [Context.view, Context.level, Context.keys, Context.find?, h.layers, h.output]
  · intro hlevel
    rw [h.control hlevel]
    rfl

end Moment.Alike

namespace Script

theorem Discreet.bind {own : String} {s : Script W α} {k : α → Script W β} (hs : s.Discreet own)
    (hk : ∀ a, (k a).Discreet own) : (s.bind k).Discreet own := by
  intro m m' h
  obtain ⟨hvalue, hafter⟩ := hs m m' h
  rw [play_bind, play_bind, hvalue]
  exact hk _ _ _ hafter

theorem discreet_done (own : String) (a : α) : (done a : Script W α).Discreet own :=
  fun _ _ h => ⟨rfl, h⟩

/-- Whoever starts with a new context does the same whatever there was in the old one. -/
theorem discreet_exchange {own : String} {s : Script W α} (hs : s.Discreet own) (c : Context) :
    (exchange (fun w _ => (w, c)) fun _ => s).Discreet own :=
  fun _ _ h => hs _ _ ⟨rfl, rfl, fun _ => rfl, h.cancelled, h.log⟩

theorem Plain.faithful {s : Script W α} (h : s.Plain) : s.Faithful := by
  induction s with
  | done a => trivial
  | world f next ih => exact fun w => ih w (h.2 w)
  | look next ih => exact fun v => ih v (h.2 v)
  | set key d next ih => exact fun result => ih result (h result)
  | update key kind f next ih => exact fun x => ih x (h x)
  | output f next ih => exact ih h
  | skipScenario reason next ih => exact ih h
  | continueAfterFailure on next ih => exact ih h
  | log e next ih => exact ih h
  | cancel next ih => exact ih h
  | exchange f next => exact h.elim

theorem Plain.discreet {s : Script W α} (h : s.Plain) (own : String) : s.Discreet own := by
  intro m m' hm
  induction s generalizing m m' with
  | done a => exact ⟨rfl, hm⟩
  | world f next ih =>
    rw [play, play, h.1 (f m'.world) (f m.world)]
    exact ih _ (h.2 _) _ _ ⟨hm.layers, hm.output, hm.control, hm.cancelled, hm.log⟩
  | look next ih =>
    obtain ⟨b, hview, hb⟩ := hm.view
    have hnext : next m'.context.view = next m.context.view := by
      rw [hview]
      by_cases hlevel : m.context.level = .scenario
      · rw [hb hlevel]
      · exact h.1 m.context.view b hlevel
    rw [play, play, hnext]
    exact ih _ (h.2 _) _ _ hm
  | set key d next ih =>
    have hset := m.context.set_under m'.context.control key d
    rw [← hm.context_eq] at hset
    cases hresult : m.context.set key d with
    | error e =>
      rw [hresult] at hset
      simp only [play, hset, hresult, Except.map]
      exact ih _ (h _) _ _ hm
    | ok c =>
      rw [hresult] at hset
      obtain rfl := Context.eq_store_of_set hresult
      simp only [play, hset, hresult, Except.map]
      exact ih _ (h _) _ _
        (hm.change (m.context.levels_store key _) (m.context.control_store key _))
  | update key kind f next ih =>
    have hupdate := m.context.update_under m'.context.control key kind f
    rw [← hm.context_eq] at hupdate
    simp only [play, hupdate]
    exact ih _ (h _) _ _
      (hm.change (m.context.levels_update key kind f) (m.context.control_update key kind f))
  | output f next ih =>
    have houtput : f m'.context.output = f m.context.output := congrArg f hm.output
    exact ih h _ _ ⟨hm.layers, houtput, hm.control, hm.cancelled, hm.log⟩
  | skipScenario reason next ih =>
    refine ih h _ _ ⟨hm.layers, hm.output, fun hlevel => ?_, hm.cancelled, hm.log⟩
    exact congrArg (fun c : Control => { c with skipReason := some reason }) (hm.control hlevel)
  | continueAfterFailure on next ih =>
    refine ih h _ _ ⟨hm.layers, hm.output, fun hlevel => ?_, hm.cancelled, hm.log⟩
    exact congrArg (fun c : Control => { c with continueAfterFailure := on }) (hm.control hlevel)
  | log e next ih =>
    exact ih h _ _ ⟨hm.layers, hm.output, hm.control, hm.cancelled,
      congrArg (· ++ e.collected own) hm.log⟩
  | cancel next ih => exact ih h _ _ ⟨hm.layers, hm.output, hm.control, rfl, hm.log⟩
  | exchange f next => exact h.elim

/-- A discreet and faithful script that spares the ground does the same on a copy of it, whatever
the world is like there. -/
theorem Discreet.play_twin {own : String} {s : Script W α} (hs : s.Discreet own)
    (hfaithful : s.Faithful) {ls base base' : List Layer}
    (hbase : base'.map Layer.unshared = base.map Layer.unshared)
    {m m' : Moment W} (hne : ls ≠ []) (hm : m.context.layers = ls ++ base)
    (halike : (m.withLayers (ls ++ base')).Alike m')
    (hspared : ∀ l ∈ base, l.values = [] ∨ l.level ∉ s.touches own m) :
    ∃ ls', ls'.map (·.level) = ls.map (·.level) ∧
      (s.play own m).1.context.layers = ls' ++ base ∧ (s.play own m').2 = (s.play own m).2 ∧
      ((s.play own m).1.withLayers (ls' ++ base')).Alike (s.play own m').1 := by
  -- from the ground to its copy, and from there to the other world and the other switches
  obtain ⟨ls', hlevels, hlayers, hplay⟩ := play_ground own hbase hfaithful hne hm hspared
  obtain ⟨hvalue, hafter⟩ := hs _ _ halike
  rw [hplay] at hvalue hafter
  exact ⟨ls', hlevels, hlayers, hvalue, hafter⟩

end Script

/-- The hooks and step definitions of a runner are discreet. -/
structure Runner.Discreet (r : Runner W) : Prop where
  hooks : ∀ hook ∈ r.hooks.hooks, ∀ event, (hook.call event).Discreet r.ownTarget
  steps : ∀ d ∈ r.registry.definitions, ∀ call, (d.implementation call).Discreet r.ownTarget

namespace Hooks

theorem discreet_callAll {own : String} {stopping : Bool} {event : HookEvent}
    {hooks : List (Hook W)} (h : ∀ hook ∈ hooks, (hook.call event).Discreet own) :
    (callAll stopping event hooks).Discreet own := by
  induction hooks with
  | nil => exact Script.discreet_done own []
  | cons hook rest ih =>
    rw [List.forall_mem_cons] at h
    refine h.1.bind fun outcome => ?_
    split
    · exact Script.discreet_done own _
    · exact (ih h.2).bind fun outcomes => Script.discreet_done own _

end Hooks

namespace Runner

variable {r : Runner W}

theorem Discreet.hooks_call (h : r.Discreet) (event : HookEvent) :
    (r.hooks.call event).Discreet r.ownTarget :=
  Hooks.discreet_callAll fun hook hmem => h.hooks hook (List.mem_filter.1 hmem).1 event

theorem Discreet.registry_call (h : r.Discreet) (m : StepMatch) (step : Step) :
    (r.registry.call m step).Discreet r.ownTarget := by
  unfold Registry.call
  split
  · rename_i d hd
    exact h.steps d (List.mem_of_getElem? hd) _
  · exact Script.discreet_done r.ownTarget _

end Runner

end Rehearsal
