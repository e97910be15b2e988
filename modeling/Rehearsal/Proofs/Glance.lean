import Rehearsal.Proofs.Faithful
import Rehearsal.Proofs.Line

/-!
# Glances at user code

A glance is the context at a moment at which user code turns to the runner, with the change in
place or the value to be stored that it asks for, if it asks for one. Hooks of one slot are called
one after the other, so the glances at the slot show the context as each of them finds it.

`Script.preserves` carries a property of the context, which may depend on the changes asked for so
far, through a faithful script, and `Turn.preserves` through the answer to a request. What was
stored is there at the next glance (`Script.answered_glances`).
-/

namespace Rehearsal

/-- A change in place that user code asks for. -/
structure Change where
  key : String
  kind : Datum.Kind
  f : kind.Carrier → kind.Carrier

/-- A value that user code asks to have stored in the innermost scope, and whether it is told that
this was done. -/
structure Storing where
  key : String
  datum : Datum
  granted : Bool

/-- The context when user code turns to the runner, and what it asks for. -/
structure Glance where
  context : Context
  change : Option Change
  storing : Option Storing

/-- The context that is found by someone who has asked to have a value stored. If that was granted,
the innermost layer holds the value, and otherwise the key belongs to the runner. -/
structure Context.Answers (c : Context) (asked : Storing) (c' : Context) : Prop where
  granted : asked.granted = true → c.layers ≠ [] →
    ∃ l ∈ c'.layers.head?, l.find? asked.key = some ⟨asked.datum, .user⟩
  refused : asked.granted = false → c' = c ∧ (c.find? asked.key).map (·.2.owner) = some .runner

namespace Context

variable {c c' : Context} {key : String} {d : Datum}

theorem answers_granted (h : c.set key d = .ok c') : c.Answers ⟨key, d, true⟩ c' where
  granted _ hne := by
    obtain rfl := eq_store_of_set h
    obtain ⟨layers, output, control⟩ := c
    cases layers with
    | nil => exact absurd rfl hne
    | cons l rest => exact ⟨l.put key ⟨d, .user⟩, rfl, l.find?_put_self key _⟩
  refused := Bool.noConfusion

theorem answers_refused {e : Masked} (h : c.set key d = .error e) :
    c.Answers ⟨key, d, false⟩ c where
  granted := Bool.noConfusion
  refused _ := ⟨rfl, owner_of_set h⟩

end Context

/-- Whoever asks to have a value stored is answered by the next glance. -/
def Answered : List Glance → Prop
  | [] => True
  | g :: rest =>
    (∀ asked, g.storing = some asked →
      ∃ g' ∈ rest.head?, g.context.Answers asked g'.context) ∧ Answered rest

namespace Answered

variable {g g' : Glance} {rest : List Glance} {asked : Storing}

theorem cons_none (hnone : g.storing = none) (hrest : Answered rest) : Answered (g :: rest) := by
  refine ⟨fun asked hasked => ?_, hrest⟩
  rw [hnone] at hasked
  cases hasked

theorem cons_some (hasked : g.storing = some asked) (hg' : g' ∈ rest.head?)
    (hanswers : g.context.Answers asked g'.context) (hrest : Answered rest) :
    Answered (g :: rest) := by
  refine ⟨fun asked' hasked' => ⟨g', hg', ?_⟩, hrest⟩
  rw [hasked] at hasked'
  cases hasked'
  exact hanswers

end Answered

/-- The changes in place that are asked for. -/
def changesOf (gs : List Glance) : List Change := gs.filterMap (·.change)

@[simp] theorem changesOf_nil : changesOf [] = [] := rfl

theorem changesOf_cons (c : Context) (change : Option Change) (storing : Option Storing)
    (gs : List Glance) :
    changesOf (⟨c, change, storing⟩ :: gs) = change.toList ++ changesOf gs := by
  cases change <;> rfl

/-- The property holds of all glances and of the context in the end, each with the changes asked
for before. -/
structure Holding (P : List Change → Context → Prop) (before : List Change) (gs : List Glance)
    (last : Context) : Prop where
  each : ∀ {pre : List Glance} {g : Glance} {post : List Glance}, gs = pre ++ g :: post →
    P (before ++ changesOf pre) g.context
  last : P (before ++ changesOf gs) last

namespace Holding

variable {P : List Change → Context → Prop} {before : List Change} {c d : Context}
  {change : Option Change} {storing : Option Storing} {gs : List Glance}

theorem single (h : P before c) : Holding P before [⟨c, none, none⟩] c where
  each := by
    intro pre g post hsplit
    cases pre with
    | nil =>
      cases hsplit
      rwa [changesOf_nil, List.append_nil]
    | cons x pre => cases pre <;> cases hsplit
  last := by
    rw [changesOf_cons]
    simpa using h

theorem push (h : P before c) (hrest : Holding P (before ++ change.toList) gs d) :
    Holding P before (⟨c, change, storing⟩ :: gs) d where
  each := by
    intro pre g post hsplit
    cases pre with
    | nil =>
      cases hsplit
      rwa [changesOf_nil, List.append_nil]
    | cons x pre =>
      cases hsplit
      rw [changesOf_cons, ← List.append_assoc]
      exact hrest.each rfl
  last := by
    rw [changesOf_cons, ← List.append_assoc]
    exact hrest.last

theorem cons (h : P before c) (hrest : Holding P before gs d) :
    Holding P before (⟨c, none, storing⟩ :: gs) d := by
  refine .push h ?_
  rwa [Option.toList_none, List.append_nil]

theorem of_mem (h : Holding P before gs d) {g : Glance} (hg : g ∈ gs) :
    ∃ changes, P changes g.context := by
  obtain ⟨pre, post, rfl⟩ := List.append_of_mem hg
  exact ⟨_, h.each rfl⟩

end Holding

/-- The property outlives everything that faithful user code may do to the context. -/
structure Lasting (P : List Change → Context → Prop) : Prop where
  set : ∀ (before : List Change) {c c' : Context} {key : String} {d : Datum}, P before c →
    c.set key d = .ok c' → P before c'
  update : ∀ (before : List Change) {c : Context} (change : Change), P before c →
    P (before ++ [change]) (c.update change.key change.kind change.f).1
  /-- It depends on the layers only. -/
  layers : ∀ (before : List Change) {c c' : Context}, P before c → c'.layers = c.layers →
    P before c'

namespace Script

/-- The glances at a script that is carried out. -/
def glances (own : String) : Script W α → Moment W → List Glance
  | done _, m => [⟨m.context, none, none⟩]
  | world f next, m =>
    ⟨m.context, none, none⟩ :: (next (f m.world)).glances own { m with world := f m.world }
  | look next, m => ⟨m.context, none, none⟩ :: (next m.context.view).glances own m
  | set key d next, m =>
    match m.context.set key d with
    | .ok c =>
      ⟨m.context, none, some ⟨key, d, true⟩⟩ ::
        (next (.ok ())).glances own { m with context := c }
    | .error e => ⟨m.context, none, some ⟨key, d, false⟩⟩ :: (next (.error e)).glances own m
  | update key k f next, m =>
    ⟨m.context, some ⟨key, k, f⟩, none⟩ ::
      (next (m.context.update key k f).2).glances own
        { m with context := (m.context.update key k f).1 }
  | output f next, m =>
    ⟨m.context, none, none⟩ ::
      next.glances own { m with context := { m.context with output := f m.context.output } }
  | skipScenario reason next, m =>
    ⟨m.context, none, none⟩ ::
      next.glances own
        { m with context :=
            { m.context with control := { m.context.control with skipReason := some reason } } }
  | continueAfterFailure on next, m =>
    ⟨m.context, none, none⟩ ::
      next.glances own
        { m with context :=
            { m.context with control := { m.context.control with continueAfterFailure := on } } }
  | log e next, m =>
    ⟨m.context, none, none⟩ :: next.glances own { m with log := m.log ++ e.collected own }
  | cancel next, m => ⟨m.context, none, none⟩ :: next.glances own { m with cancelled := true }
  | exchange f next, m =>
    ⟨m.context, none, none⟩ ::
      (next (f m.world m.context).1).glances own
        { m with world := (f m.world m.context).1, context := (f m.world m.context).2 }

theorem preserves {P : List Change → Context → Prop} (hP : Lasting P) (own : String)
    {s : Script W α} (hs : s.Faithful) {m : Moment W} {before : List Change}
    (h : P before m.context) : Holding P before (s.glances own m) (s.play own m).1.context := by
  induction s generalizing m before with
  | done a => exact .single h
  | world f next ih => exact .cons h (ih _ (hs _) h)
  | look next ih => exact .cons h (ih _ (hs _) h)
  | set key d next ih =>
    rw [glances, play]
    cases hset : m.context.set key d with
    | ok c => exact .cons h (ih _ (hs _) (m := { m with context := c }) (hP.set _ h hset))
    | error e => exact .cons h (ih _ (hs _) h)
  | update key k f next ih =>
    exact .push h (ih _ (hs _) (m := { m with context := (m.context.update key k f).1 })
      (hP.update _ ⟨key, k, f⟩ h))
  | output f next ih => exact .cons h (ih hs (m := _) (hP.layers _ h rfl))
  | skipScenario reason next ih => exact .cons h (ih hs (m := _) (hP.layers _ h rfl))
  | continueAfterFailure on next ih => exact .cons h (ih hs (m := _) (hP.layers _ h rfl))
  | log e next ih => exact .cons h (ih hs (m := _) h)
  | cancel next ih => exact .cons h (ih hs (m := _) h)
  | exchange f next => exact hs.elim

/-- If user code leads from every context to related ones, all that is seen of a context is related
to all that is seen later, and to what is left in the end. -/
theorem pairwise_glances {R : Context → Context → Prop} (hR : ∀ c, Lasting fun _ => R c)
    (hrefl : ∀ c, R c c) (own : String) {s : Script W α} (hs : s.Faithful) (m : Moment W) :
    ((s.glances own m).map (·.context) ++ [(s.play own m).1.context]).Pairwise R := by
  have hnext : ∀ {c : Context} {s : Script W α} {m : Moment W}, s.Faithful → R c m.context →
      ((s.glances own m).map (·.context) ++ [(s.play own m).1.context]).Pairwise R →
      (c :: ((s.glances own m).map (·.context) ++ [(s.play own m).1.context])).Pairwise R := by
    intro c s m hs hc hrest
    have hholding : Holding (fun _ => R c) [] _ _ := preserves (hR c) own hs hc
    refine .cons (fun d hd => ?_) hrest
    rcases List.mem_append.1 hd with hd | hd
    · obtain ⟨g, hg, rfl⟩ := List.mem_map.1 hd
      obtain ⟨-, h⟩ := hholding.of_mem hg
      exact h
    · rw [List.mem_singleton.1 hd]
      exact hholding.last
  induction s generalizing m with
  | done a => exact .cons (by simpa using hrefl m.context) (.cons (by simp) .nil)
  | world f next ih => exact hnext (hs _) (hrefl _) (ih _ (hs _) _)
  | look next ih => exact hnext (hs _) (hrefl _) (ih _ (hs _) _)
  | set key d next ih =>
    rw [glances, play]
    cases hset : m.context.set key d with
    | ok c =>
      exact hnext (hs _) (m := { m with context := c }) ((hR _).set [] (hrefl _) hset)
        (ih _ (hs _) _)
    | error e => exact hnext (hs _) (hrefl _) (ih _ (hs _) _)
  | update key k f next ih =>
    exact hnext (hs _) (m := { m with context := (m.context.update key k f).1 })
      ((hR _).update [] ⟨key, k, f⟩ (hrefl _)) (ih _ (hs _) _)
  | output f next ih =>
    exact hnext hs ((hR _).layers [] (hrefl _) rfl) (ih hs _)
  | skipScenario reason next ih =>
    exact hnext hs ((hR _).layers [] (hrefl _) rfl) (ih hs _)
  | continueAfterFailure on next ih =>
    exact hnext hs ((hR _).layers [] (hrefl _) rfl) (ih hs _)
  | log e next ih => exact hnext hs (hrefl _) (ih hs _)
  | cancel next ih => exact hnext hs (hrefl _) (ih hs _)
  | exchange f next => exact hs.elim

/-- The first glance is at the context that the script finds. -/
theorem exists_head?_glances (own : String) (s : Script W α) (m : Moment W) :
    ∃ g ∈ (s.glances own m).head?, g.context = m.context := by
  cases s with
  | set key d next =>
    rw [glances]
    split <;> exact ⟨_, rfl, rfl⟩
  | done | world | look | update | output | skipScenario | continueAfterFailure | log | cancel |
    exchange => exact ⟨_, rfl, rfl⟩

theorem answered_glances (own : String) (s : Script W α) (m : Moment W) :
    Answered (s.glances own m) := by
  induction s generalizing m with
  | done a => exact .cons_none rfl trivial
  | set key d next ih =>
    rw [glances]
    cases hset : m.context.set key d with
    | ok c =>
      obtain ⟨g, hg, hcontext⟩ := (next (.ok ())).exists_head?_glances own { m with context := c }
      refine .cons_some rfl hg ?_ (ih _ _)
      rw [hcontext]
      exact Context.answers_granted hset
    | error e =>
      obtain ⟨g, hg, hcontext⟩ := (next (.error e)).exists_head?_glances own m
      refine .cons_some rfl hg ?_ (ih _ _)
      rw [hcontext]
      exact Context.answers_refused hset
  | world f next ih => exact .cons_none rfl (ih _ _)
  | look next ih => exact .cons_none rfl (ih _ _)
  | update key k f next ih => exact .cons_none rfl (ih _ _)
  | exchange f next ih => exact .cons_none rfl (ih _ _)
  | output f next ih => exact .cons_none rfl (ih _)
  | skipScenario reason next ih => exact .cons_none rfl (ih _)
  | continueAfterFailure on next ih => exact .cons_none rfl (ih _)
  | log e next ih => exact .cons_none rfl (ih _)
  | cancel next ih => exact .cons_none rfl (ih _)

end Script

namespace Turn

/-- The glances at the user code that is called to answer the request; if none is, the context that
the request finds. -/
def glances (r : Runner W) (x : Turn W) : List Glance :=
  match x.request with
  | .hooks event =>
    (r.hooks.call event).glances r.ownTarget ⟨x.stage.world, x.stage.context, x.stage.cancelled, ""⟩
  | .call m step =>
    (r.registry.call m step).glances r.ownTarget
      ⟨x.stage.world, x.stage.context, x.stage.cancelled, ""⟩
  | _ => [⟨x.stage.context, none, none⟩]

def changes (r : Runner W) (x : Turn W) : List Change := changesOf (x.glances r)

/-- Does the request open or close a scope? -/
def isPassage (x : Turn W) : Bool :=
  match x.request with
  | .enter _ _ | .leave => true
  | _ => false

variable {r : Runner W} {x : Turn W}

theorem glances_of_isPassage (hx : x.isPassage = true) :
    x.glances r = [⟨x.stage.context, none, none⟩] := by
  obtain ⟨s, q⟩ := x
  cases q with
  | enter level values => rfl
  | leave => rfl
  | reset | control | isStopped | stop | find | hooks | call => cases hx

theorem answered_glances (r : Runner W) (x : Turn W) : Answered (x.glances r) := by
  obtain ⟨s, q⟩ := x
  cases q with
  | hooks event => exact (r.hooks.call event).answered_glances r.ownTarget _
  | call m step => exact (r.registry.call m step).answered_glances r.ownTarget _
  | enter | leave | reset | control | isStopped | stop | find => exact .cons_none rfl trivial

theorem changes_of_isPassage (hx : x.isPassage = true) : x.changes r = [] := by
  rw [changes, glances_of_isPassage hx]
  rfl

/-- What outlives user code outlives the turn, unless a scope is opened or closed. -/
theorem preserves {P : List Change → Context → Prop} (hP : Lasting P) (hr : r.Faithful)
    (hx : x.isPassage = false) (before : List Change) (h : P before x.stage.context) :
    Holding P before (x.glances r) (x.left r) := by
  obtain ⟨s, q⟩ := x
  cases q with
  | enter level values => cases hx
  | leave => cases hx
  | hooks event =>
    obtain ⟨heach, hlast⟩ := Script.preserves hP r.ownTarget (hr.hooks_call event)
      (m := ⟨s.world, s.context, s.cancelled, ""⟩) h
    exact ⟨heach, hP.layers _ hlast rfl⟩
  | call m step =>
    obtain ⟨heach, hlast⟩ := Script.preserves hP r.ownTarget (hr.registry_call m step)
      (m := ⟨s.world, s.context, s.cancelled, ""⟩) h
    exact ⟨heach, hP.layers _ hlast rfl⟩
  | reset on =>
    obtain ⟨heach, hlast⟩ := Holding.single h
    exact ⟨heach, hP.layers _ hlast rfl⟩
  | control => exact .single h
  | isStopped => exact .single h
  | stop => exact .single h
  | find step => exact .single h

/-- `Script.pairwise_glances` for the user code that is called to answer a request. -/
theorem pairwise_glances {R : Context → Context → Prop} (hR : ∀ c, Lasting fun _ => R c)
    (hrefl : ∀ c, R c c) (hr : r.Faithful) (hx : x.isPassage = false) :
    ((x.glances r).map (·.context) ++ [x.left r]).Pairwise R := by
  have hlast : ∀ {cs : List Context} {c d : Context}, (cs ++ [c]).Pairwise R →
      d.layers = c.layers → (cs ++ [d]).Pairwise R := by
    intro cs c d h hlayers
    rw [List.pairwise_append] at h ⊢
    refine ⟨h.1, List.pairwise_singleton R d, fun a ha b hb => ?_⟩
    rw [List.mem_singleton.1 hb]
    exact (hR a).layers [] (h.2.2 a ha c List.mem_cons_self) hlayers
  obtain ⟨s, q⟩ := x
  have hsingle : ([s.context] ++ [s.context]).Pairwise R := by
    simpa using hrefl s.context
  cases q with
  | enter level values => cases hx
  | leave => cases hx
  | hooks event =>
    exact hlast (Script.pairwise_glances hR hrefl r.ownTarget (hr.hooks_call event)
      ⟨s.world, s.context, s.cancelled, ""⟩) rfl
  | call m step =>
    exact hlast (Script.pairwise_glances hR hrefl r.ownTarget (hr.registry_call m step)
      ⟨s.world, s.context, s.cancelled, ""⟩) rfl
  | reset on => exact hlast hsingle rfl
  | control => exact hsingle
  | isStopped => exact hsingle
  | stop => exact hsingle
  | find step => exact hsingle

end Turn

end Rehearsal
