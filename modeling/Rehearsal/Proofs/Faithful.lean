import Rehearsal.Run.Stage

/-!
# Faithful user code

User code is faithful if it goes to the context through its methods only, and so keeps the context
that it is given. This is what the guarantees for scopes rest on: whoever puts another context in
the place of the one at hand has closed all scopes at once.
-/

namespace Rehearsal

/-- The script never puts another context in the place of the one at hand. -/
def Script.Faithful : Script W α → Prop
  | done _ => True
  | world _ next => ∀ w, (next w).Faithful
  | look next => ∀ v, (next v).Faithful
  | set _ _ next => ∀ result, (next result).Faithful
  | update _ _ _ next => ∀ x, (next x).Faithful
  | output _ next => next.Faithful
  | skipScenario _ next => next.Faithful
  | continueAfterFailure _ next => next.Faithful
  | log _ next => next.Faithful
  | cancel next => next.Faithful
  | exchange _ _ => False

theorem Script.Faithful.bind {s : Script W α} {k : α → Script W β} (hs : s.Faithful)
    (hk : ∀ a, (k a).Faithful) : (s.bind k).Faithful := by
  induction s with
  | done a => exact hk a
  | world f next ih => exact fun w => ih w (hs w)
  | look next ih => exact fun v => ih v (hs v)
  | set key d next ih => exact fun result => ih result (hs result)
  | update key kind f next ih => exact fun x => ih x (hs x)
  | output f next ih => exact ih hs
  | skipScenario reason next ih => exact ih hs
  | continueAfterFailure on next ih => exact ih hs
  | log e next ih => exact ih hs
  | cancel next ih => exact ih hs
  | exchange f next => exact hs.elim

/-- The hooks and step definitions of a runner are faithful. -/
structure Runner.Faithful (r : Runner W) : Prop where
  hooks : ∀ hook ∈ r.hooks.hooks, ∀ event, (hook.call event).Faithful
  steps : ∀ d ∈ r.registry.definitions, ∀ call, (d.implementation call).Faithful

theorem Hooks.faithful_callAll {stopping : Bool} {event : HookEvent} {hooks : List (Hook W)}
    (h : ∀ hook ∈ hooks, (hook.call event).Faithful) :
    (callAll stopping event hooks).Faithful := by
  induction hooks with
  | nil => trivial
  | cons hook rest ih =>
    rw [List.forall_mem_cons] at h
    refine h.1.bind fun outcome => ?_
    split
    · trivial
    · exact (ih h.2).bind fun outcomes => trivial

namespace Runner.Faithful

variable {r : Runner W}

theorem hooks_call (h : r.Faithful) (event : HookEvent) : (r.hooks.call event).Faithful :=
  Hooks.faithful_callAll fun hook hmem => h.hooks hook (List.mem_filter.1 hmem).1 event

theorem registry_call (h : r.Faithful) (m : StepMatch) (step : Step) :
    (r.registry.call m step).Faithful := by
  unfold Registry.call
  split
  · rename_i d hd
    exact h.steps d (List.mem_of_getElem? hd) _
  · trivial

end Runner.Faithful

end Rehearsal
