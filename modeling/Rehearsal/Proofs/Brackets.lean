import Rehearsal.Proofs.Nesting

/-!
# Hooks come in pairs

`unclosed` reads cues from left to right and keeps the slots that still have to be closed,
the innermost first. Whatever is nested is read to the end and leaves nothing behind; and
after a slot that has failed before something, nothing is called until all that was opened
for the same node is closed.
-/

namespace Rehearsal

/-- Does the event close what the other one opens? -/
def HookEvent.closes (e e' : HookEvent) : Bool := e.point == e'.point.closing && e.scope == e'.scope

/-- The events that are still to be closed after the cue, given those before it, the innermost
first. A slot after something that does not close the innermost one is an error. -/
def Cue.pass (es : List HookEvent) : Cue → Option (List HookEvent)
  | slot s =>
    if s.event.point.isBefore then some (s.event :: es)
    else
      match es with
      | [] => none
      | e :: outer => if s.event.closes e then some outer else none
  | _ => some es

/-- The events that are still to be closed after the cues. -/
def unclosed (es : List HookEvent) (cues : List Cue) : Option (List HookEvent) :=
  cues.foldlM Cue.pass es

theorem unclosed_cons (es : List HookEvent) (cue : Cue) (rest : List Cue) :
    unclosed es (cue :: rest) = (cue.pass es).bind fun es' => unclosed es' rest := rfl

theorem unclosed_append (es : List HookEvent) (xs ys : List Cue) :
    unclosed es (xs ++ ys) = (unclosed es xs).bind fun es' => unclosed es' ys :=
  List.foldlM_append

theorem pass_before {s : SlotCue} (h : s.event.point.isBefore = true) (es : List HookEvent) :
    (Cue.slot s).pass es = some (s.event :: es) := if_pos h

theorem pass_after {s : SlotCue} {e : HookEvent} (h : s.event.point.isBefore = false)
    (hcloses : s.event.closes e = true) (es : List HookEvent) :
    (Cue.slot s).pass (e :: es) = some es := by
  simp [Cue.pass, h, hcloses]

theorem unclosed_before {ss : List SlotCue} (h : ∀ s ∈ ss, s.event.point.isBefore = true)
    (es : List HookEvent) :
    unclosed es (ss.map .slot) = some ((ss.map (·.event)).reverse ++ es) := by
  induction ss generalizing es with
  | nil => rfl
  | cons s rest ih =>
    obtain ⟨hs, hrest⟩ := List.forall_mem_cons.1 h
    rw [List.map_cons, unclosed_cons, pass_before hs, Option.bind_some, ih hrest]
    simp

theorem HookPoint.isBefore_closing (p : HookPoint) : p.closing.isBefore = false := by
  cases p <;> rfl

theorem HookEvent.closes_closing (e : HookEvent) (status : Status) :
    (e.closing status).closes e = true := by
  simp [closes, closing]

/-- Slots that close some events, in order. -/
theorem unclosed_after {ss : List SlotCue} {opened : List HookEvent} {status : Status}
    (h : ss.map (·.event) = opened.map (·.closing status)) (es : List HookEvent) :
    unclosed (opened ++ es) (ss.map .slot) = some es := by
  induction opened generalizing ss with
  | nil =>
    rw [List.map_nil, List.map_eq_nil_iff] at h
    rw [h]
    rfl
  | cons e rest ih =>
    rw [List.map_cons, List.map_eq_cons_iff] at h
    obtain ⟨s, ss', rfl, hs, hss'⟩ := h
    have hafter : s.event.point.isBefore = false := by
      rw [hs]
      exact HookPoint.isBefore_closing e.point
    have hcloses : s.event.closes e = true := by
      rw [hs]
      exact e.closes_closing status
    rw [List.map_cons, List.cons_append, unclosed_cons, pass_after hafter hcloses]
    exact ih hss'

theorem isBefore_of_mem_entry {o : RunOptions} {n : HookScope} {e : HookEvent}
    (h : e ∈ o.entry n) : e.point.isBefore = true := by
  rcases RunOptions.eq_of_mem_entry h with ⟨tag, rfl⟩ | rfl
  · rfl
  · cases n <;> rfl

namespace Passage.Crosses

variable {o : RunOptions} {n : HookScope} {status : Status} {p : Passage} {inside : List Cue}

theorem isBefore (h : p.Crosses o n status) : ∀ s ∈ p.before, s.event.point.isBefore = true :=
  fun _ hs => isBefore_of_mem_entry (h.entry.subset (List.mem_map_of_mem hs))

theorem isAfter (h : p.Crosses o n status) : ∀ s ∈ p.after, s.event.point.isBefore = false := by
  intro s hs
  obtain ⟨s', -, hevent⟩ := h.exists_closing hs
  rw [← hevent]
  exact HookPoint.isBefore_closing s'.event.point

theorem unclosed_around (h : p.Crosses o n status)
    (hinside : ∀ es, unclosed es inside = some es) (es : List HookEvent) :
    unclosed es (p.around inside) = some es := by
  have hexit : p.after.map (·.event) = (p.before.map (·.event)).reverse.map (·.closing status) := by
    rw [h.exit, List.map_reverse, List.map_map]
    rfl
  rw [Passage.around, unclosed_append, unclosed_append, unclosed_before h.isBefore,
    Option.bind_some, hinside, Option.bind_some]
  exact unclosed_after hexit es

end Passage.Crosses

/-- What is nested closes what it opens. -/
theorem Nested.unclosed {o : RunOptions} {k : Company} {q : Stretch} {cues : List Cue}
    (h : Nested o k q cues) (es : List HookEvent) : unclosed es cues = some es := by
  induction h generalizing es with
  | bare | nil => rfl
  | @step f m p call status calm hdry hfound first crosses calls own =>
    refine crosses.unclosed_around (fun es => ?_) es
    cases call <;> rfl
  | node level calm first crosses barred hinside ih => exact crosses.unclosed_around ih es
  | cons hholds hfirst hrest ihfirst ihrest =>
    rw [unclosed_append, ihfirst]
    exact ihrest es

/-- The cues after a slot close it and what was opened for the same node before it; `start` is
the start of the node. -/
inductive Retreat (s : SlotCue) : List Cue → List Cue → Prop where
  | intro {outer rest : List Cue} {start : Cue} {opened closings : List SlotCue} {status : Status}
      (hstart : start.isStart = true)
      (hcloses : closings.map (·.event) =
        ((opened ++ [s]).map (·.event.closing status)).reverse) :
      Retreat s (outer ++ start :: opened.map .slot) (closings.map .slot ++ rest)

theorem Retreat.prepend {s : SlotCue} {pre post : List Cue} (h : Retreat s pre post)
    (xs : List Cue) : Retreat s (xs ++ pre) post := by
  cases h with
  | intro hstart hcloses =>
    rw [← List.append_assoc]
    exact .intro hstart hcloses

theorem Retreat.append {s : SlotCue} {pre post : List Cue} (h : Retreat s pre post)
    (ys : List Cue) : Retreat s pre (post ++ ys) := by
  cases h with
  | intro hstart hcloses =>
    rw [List.append_assoc]
    exact .intro hstart hcloses

/-- After a slot has failed before something, nothing is called until what was opened for the
same node is closed. -/
def Barred (cues : List Cue) : Prop :=
  ∀ (pre post : List Cue) (s : SlotCue), cues = pre ++ .slot s :: post →
    s.event.point.isBefore = true → s.isOk = false → Retreat s pre post

/-- Without a slot before something there is nothing to show. -/
theorem Barred.of_after {cues : List Cue}
    (h : ∀ s, .slot s ∈ cues → s.event.point.isBefore = false) : Barred cues := by
  intro pre post s hsplit hbefore
  have hafter := h s (by rw [hsplit]; simp)
  rw [hbefore] at hafter
  cases hafter

theorem Barred.append {xs ys : List Cue} (hxs : Barred xs) (hys : Barred ys) :
    Barred (xs ++ ys) := by
  intro pre post s hsplit hbefore hfail
  have hright : ∀ pre', ys = pre' ++ .slot s :: post → pre = xs ++ pre' → Retreat s pre post := by
    intro pre' hys' hpre
    rw [hpre]
    exact (hys pre' post s hys' hbefore hfail).prepend xs
  rcases List.append_eq_append_iff.1 hsplit with ⟨pre', hpre, hys'⟩ | ⟨xs', hxs', hpost⟩
  · exact hright pre' hys' hpre
  · cases xs' with
    | nil => exact hright [] hpost.symm (by simpa using hxs'.symm)
    | cons cue xs' =>
      rw [List.cons_append, List.cons.injEq] at hpost
      obtain ⟨rfl, rfl⟩ := hpost
      exact (hxs pre xs' s hxs' hbefore hfail).append ys

namespace Passage.Crosses

variable {o : RunOptions} {n : HookScope} {status : Status} {p : Passage} {inside : List Cue}

/-- A slot that fails on entering is the last one. -/
theorem last (h : p.Crosses o n status) {opened more : List SlotCue} {s : SlotCue}
    (hbefore : p.before = opened ++ s :: more) (hfail : s.isOk = false) :
    more = [] ∧ p.proceeds = false := by
  constructor
  · cases more with
    | nil => rfl
    | cons s' more =>
      have hmem : s ∈ p.before.dropLast := by
        rw [hbefore, List.dropLast_append_of_ne_nil (List.cons_ne_nil s _), List.dropLast_cons_cons]
        simp
      rw [h.steady s hmem] at hfail
      cases hfail
  · rw [Passage.proceeds, List.all_eq_false]
    exact ⟨s, by simp [hbefore], by simp [hfail]⟩

theorem barred_around (h : p.Crosses o n status) {start : Cue} (hstart : start.isStart = true)
    (hbarred : p.proceeds = false → inside = []) (hinside : Barred inside) :
    Barred (start :: p.around inside) := by
  have hafter : Barred (inside ++ p.after.map .slot) := by
    refine hinside.append (.of_after fun s hs => ?_)
    obtain ⟨s', hs', heq⟩ := List.mem_map.1 hs
    cases heq
    exact h.isAfter s hs'
  intro pre post s hsplit hbefore hfail
  rw [Passage.around, List.append_assoc] at hsplit
  cases pre with
  | nil =>
    rw [List.nil_append, List.cons.injEq] at hsplit
    rw [hsplit.1] at hstart
    cases hstart
  | cons cue pre =>
    rw [List.cons_append, List.cons.injEq] at hsplit
    obtain ⟨rfl, hsplit⟩ := hsplit
    have hright : ∀ pre', inside ++ p.after.map .slot = pre' ++ .slot s :: post →
        Retreat s (start :: p.before.map .slot ++ pre') post := fun pre' hrest =>
      (hafter pre' post s hrest hbefore hfail).prepend (start :: p.before.map .slot)
    rcases List.append_eq_append_iff.1 hsplit with ⟨pre', rfl, hrest⟩ | ⟨late, hlate, hrest⟩
    · exact hright pre' hrest
    · obtain ⟨opened, more, hopened, rfl, rfl⟩ := List.map_eq_append_iff.1 hlate
      cases more with
      | nil =>
        rw [List.append_nil] at hopened
        have hretreat := hright [] hrest.symm
        rwa [List.append_nil, hopened] at hretreat
      | cons s' more =>
        rw [List.map_cons, List.cons_append, List.cons.injEq, Cue.slot.injEq] at hrest
        obtain ⟨rfl, rfl⟩ := hrest
        -- the slot is the last one on entering, so only the exit follows it
        obtain ⟨rfl, hproceeds⟩ := h.last hopened hfail
        rw [hbarred hproceeds]
        have hexit := h.exit
        rw [hopened] at hexit
        have hretreat : Retreat s ([] ++ start :: opened.map .slot) (p.after.map .slot ++ []) :=
          .intro hstart hexit
        rwa [List.append_nil] at hretreat

end Passage.Crosses

theorem Nested.barred {o : RunOptions} {k : Company} {q : Stretch} {cues : List Cue}
    (h : Nested o k q cues) : Barred cues := by
  induction h with
  | bare | nil => exact .of_after (by simp)
  | @step f m p call status calm hdry hfound first crosses calls own =>
    refine crosses.barred_around rfl ?_ (.of_after ?_)
    · intro hfail
      rw [hfail] at calls
      cases call with
      | none => rfl
      | some c => cases calls
    · cases call <;> simp
  | node level calm first crosses barred hinside ih => exact crosses.barred_around rfl barred ih
  | cons hholds hfirst hrest ihfirst ihrest => exact ihfirst.append ihrest

/-! ### Whole runs -/

def HookPoint.isAll : HookPoint → Bool
  | beforeAll | afterAll => true
  | _ => false

/-- The first slot is the one before everything, the last one that after everything, and there
is no other such slot. -/
inductive Framed : List Cue → Prop where
  | intro {start : EnterCue} {first last : SlotCue} {between : List Cue}
      (hfirst : first.event.point = .beforeAll) (hlast : last.event.point = .afterAll)
      (hbetween : ∀ s, .slot s ∈ between → s.event.point.isAll = false) :
      Framed (.enter start :: .slot first :: between ++ [.slot last])

theorem isAll_of_mem_entry {o : RunOptions} {n : HookScope} (hn : n ≠ .suite) {e : HookEvent}
    (h : e ∈ o.entry n) : e.point.isAll = false ∧ e.point.closing.isAll = false := by
  rcases RunOptions.eq_of_mem_entry h with ⟨tag, rfl⟩ | rfl
  · exact ⟨rfl, rfl⟩
  · cases n with
    | suite => exact absurd rfl hn
    | _ => exact ⟨rfl, rfl⟩

namespace Passage.Crosses

variable {o : RunOptions} {n : HookScope} {status : Status} {p : Passage} {inside : List Cue}

theorem isAll_around (h : p.Crosses o n status) (hn : n ≠ .suite)
    (hinside : ∀ s, .slot s ∈ inside → s.event.point.isAll = false) :
    ∀ s, .slot s ∈ p.around inside → s.event.point.isAll = false := by
  have hentry : ∀ s ∈ p.before, s.event.point.isAll = false ∧ s.event.point.closing.isAll = false :=
    fun s hs => isAll_of_mem_entry hn (h.entry.subset (List.mem_map_of_mem hs))
  intro s hs
  rcases Passage.mem_around.1 hs with ⟨s', hs', heq⟩ | hs
  · cases heq
    rcases List.mem_append.1 hs' with hbefore | hafter
    · exact (hentry s hbefore).1
    · obtain ⟨s', hs', hevent⟩ := h.exists_closing hafter
      rw [← hevent]
      exact (hentry s' hs').2
  · exact hinside s hs

/-- Outside dry runs the slots of a run as a whole are both called. -/
theorem suite (h : p.Crosses o .suite status) (hdry : o.dryRun = false) :
    ∃ first last : SlotCue, p = ⟨[first], [last]⟩ ∧ first.event = ⟨.beforeAll, .suite, .none⟩ ∧
      last.event = ⟨.afterAll, .suite, some status⟩ := by
  have hentry : o.entry .suite = [⟨.beforeAll, .suite, .none⟩] := by
    rw [RunOptions.entry, RunOptions.called, hdry]
    rfl
  have hbefore : p.before.map (·.event) = [⟨.beforeAll, .suite, .none⟩] := by
    cases hproceeds : p.proceeds with
    | true => rw [h.complete hproceeds, hentry]
    | false =>
      obtain ⟨s, hs, -⟩ := List.all_eq_false.1 hproceeds
      have hprefix := h.entry
      rw [hentry] at hprefix
      refine hprefix.eq_of_length_le ?_
      have hpos := List.length_pos_of_mem hs
      rw [List.length_map, List.length_singleton]
      exact hpos
  have hafter := h.exit
  rw [List.map_eq_singleton_iff] at hbefore
  obtain ⟨first, hfirst, hevent⟩ := hbefore
  rw [hfirst, List.map_singleton, List.reverse_singleton, List.map_eq_singleton_iff] at hafter
  obtain ⟨last, hlast, hclosing⟩ := hafter
  rw [hevent] at hclosing
  refine ⟨first, last, ?_, hevent, hclosing⟩
  cases p
  cases hfirst
  cases hlast
  rfl

end Passage.Crosses

/-- Below the suite no slot of the run as a whole is called. -/
theorem Nested.isAll {o : RunOptions} {k : Company} {q : Stretch} {cues : List Cue}
    (h : Nested o k q cues) (hq : q ≠ .node .suite) :
    ∀ s, .slot s ∈ cues → s.event.point.isAll = false := by
  induction h with
  | bare => simp
  | nil => simp
  | @step f m p call status calm hdry hfound first crosses calls own =>
    intro s hs
    rw [List.mem_cons] at hs
    rcases hs with hs | hs
    · cases hs
    · refine crosses.isAll_around (by simp) ?_ s hs
      cases call <;> simp
  | @node n start p inside status level calm first crosses barred hinside ih =>
    intro s hs
    rw [List.mem_cons] at hs
    rcases hs with hs | hs
    · cases hs
    · refine crosses.isAll_around ?_ (ih (by simp)) s hs
      rintro rfl
      exact hq rfl
  | @cons n m cues rest hholds hfirst hrest ihfirst ihrest =>
    intro s hs
    rcases List.mem_append.1 hs with hs | hs
    · refine ihfirst ?_ s hs
      rintro ⟨⟩
      cases n <;> cases hholds
    · exact ihrest (by simp) s hs

theorem Nested.framed {o : RunOptions} {k : Company} {cues : List Cue}
    (h : Nested o k (.node .suite) cues) (hdry : o.dryRun = false) : Framed cues := by
  cases h with
  | node level calm first crosses barred hinside =>
    obtain ⟨first, last, rfl, hfirst, hlast⟩ := crosses.suite hdry
    refine .intro ?_ ?_ (hinside.isAll (by simp))
    · rw [hfirst]
    · rw [hlast]

namespace Runner

variable (r : Runner W) (suite : Suite) (world : W) (cancelled : Bool)

/-- In a run over a well-formed suite, hooks nest: every slot before something is closed by the
slot after it, in the reverse order, and after one that fails nothing is called but the
slots closing the same node. So do the hooks of every single attempt at a scenario. -/
theorem hooks_nest (hvalid : suite.violation? = none) (hdry : r.options.dryRun = false) :
    ∃ a : RunAccount, a.Sound (r.terms suite world cancelled) cancelled (r.options.plan suite) ∧
      a.cues = r.cues suite world cancelled ∧ Nested r.options .alone (.node .suite) a.cues ∧
      unclosed [] a.cues = some [] ∧ Barred a.cues ∧ Framed a.cues ∧
      ∀ s ∈ a.scenarios, ∀ x ∈ s.attempts,
        Nested r.options .alone (.node (.scenario s.planned.scenario)) x.cues ∧
          unclosed [] x.cues = some [] := by
  obtain ⟨a, ha, -, hcues⟩ := r.exists_account suite world cancelled hvalid
  have hnested := ha.nested
  refine ⟨a, ha, hcues, hnested, hnested.unclosed [], hnested.barred, hnested.framed hdry, ?_⟩
  intro s hs x hx
  obtain ⟨e, backgrounds, hsound⟩ := ha.scenario hs
  exact ⟨hsound.nested x hx, (hsound.nested x hx).unclosed []⟩

/-- The hooks of a run in which the slot before the feature fails. -/
theorem hooks_nest_single :
    let r := ofHooks (Hooks.none.register .beforeFeature fun _ => .done (.error "boom" false))
    let suite := Suite.single (.named "scenario")
    suite.violation? = none ∧ r.options.dryRun = false ∧
      Framed (r.cues suite () false) ∧ Barred (r.cues suite () false) ∧
      ((r.cues suite () false).filterMap Cue.slot?).map (·.event.point) =
        [.beforeAll, .beforeFeature, .afterFeature, .afterAll] := by
  intro r suite
  have hvalid : suite.violation? = none := by decide
  have hdry : r.options.dryRun = false := rfl
  obtain ⟨a, -, hcues, -, -, hbarred, hframed, -⟩ := r.hooks_nest suite () false hvalid hdry
  rw [hcues] at hbarred hframed
  exact ⟨hvalid, hdry, hframed, hbarred, by decide⟩

end Runner

end Rehearsal
