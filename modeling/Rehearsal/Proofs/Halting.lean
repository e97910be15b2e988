import Rehearsal.Proofs.Brackets

/-!
# Runs halt

Once a run done alone is to stop, nothing is started in it any more: every node finds the
run going on when it is started, except the suite. What user code is still called for lies
on the way out. `Late` lists what may come before the slots that close what is open: the rest
of the entry into one node, or the implementation of one step, if the slot during which the
wish to stop came up has succeeded.

`Halts` speaks of every split of the cues into those before that moment and those after it,
and is proved by induction on nested cues.
-/

namespace Rehearsal

/-- The cue is the start of a node like the given one. -/
def Cue.Starts : Cue → HookScope → Prop
  | enter e, n => e.level = n.level
  | find f, n => n = .step f.step
  | _, _ => False

/-- What may be called first after the cues `pre`, once the run is to stop. -/
inductive Late (o : RunOptions) : List Cue → List Cue → Prop where
  | none (pre : List Cue) : Late o pre []
  /-- The run was to stop from the beginning; it is opened nonetheless. -/
  | opening {start : EnterCue} {before : List SlotCue} (hstart : start.level = .suite)
      (hentry : before.map (·.event) <+: o.entry .suite) :
      Late o [] (.enter start :: before.map .slot)
  /-- The rest of the entry into the node started last. -/
  | entry {outer : List Cue} {start : Cue} {n : HookScope} {opened rest : List SlotCue}
      (hstart : start.Starts n) (hopened : opened ≠ []) (hok : ∀ s ∈ opened, s.isOk = true)
      (hentry : (opened ++ rest).map (·.event) <+: o.entry n) :
      Late o (outer ++ start :: opened.map .slot) (rest.map .slot)
  /-- The implementation of the step started last. -/
  | call {outer : List Cue} {f : FindCue} {before : SlotCue} {c : CallCue}
      (hevent : before.event = ⟨.beforeStep, .step f.step, .none⟩) (hok : before.isOk = true)
      (hstep : c.step = f.step) : Late o (outer ++ [.find f, .slot before]) [.call c]

theorem Late.prepend {o : RunOptions} {pre late : List Cue} (h : Late o pre late)
    (hpre : pre ≠ []) (xs : List Cue) : Late o (xs ++ pre) late := by
  cases h with
  | none => exact .none _
  | opening => exact absurd rfl hpre
  | entry hstart hopened hok hentry =>
    rw [← List.append_assoc]
    exact .entry hstart hopened hok hentry
  | call hevent hok hstep =>
    rw [← List.append_assoc]
    exact .call hevent hok hstep

/-- Wherever the cues are split into those at which the run was not to stop and those at which
it was, the latter are late ones and slots after something. -/
def Halts (o : RunOptions) (cues : List Cue) : Prop :=
  ∀ pre post : List Cue, cues = pre ++ post → (∀ c ∈ pre, c.stopped = false) →
    (∀ c ∈ post, c.stopped = true) →
    ∃ (late : List Cue) (closings : List SlotCue), post = late ++ closings.map .slot ∧
      Late o pre late ∧ ∀ s ∈ closings, s.event.point.isBefore = false

/-- The first of the cues, if there is any, finds the run going on. -/
def Calm (cues : List Cue) : Prop := ∀ c, cues.head? = some c → c.stopped = false

theorem Calm.append {xs ys : List Cue} (hxs : Calm xs) (hys : Calm ys) : Calm (xs ++ ys) := by
  cases xs with
  | nil => exact hys
  | cons cue rest => exact hxs

/-- Cues of which the first finds the run going on are not all late. -/
theorem Calm.eq_nil {cues : List Cue} (h : Calm cues) (hstopped : ∀ c ∈ cues, c.stopped = true) :
    cues = [] := by
  cases cues with
  | nil => rfl
  | cons cue rest =>
    have hcalm := h cue rfl
    rw [hstopped cue (by simp)] at hcalm
    cases hcalm

namespace Halts

variable {o : RunOptions} {xs ys : List Cue}

theorem nil : Halts o [] := by
  intro pre post hsplit hpre hpost
  obtain ⟨rfl, rfl⟩ := List.append_eq_nil_iff.1 hsplit.symm
  exact ⟨[], [], rfl, .none _, by simp⟩

theorem single {cue : Cue} (hcalm : cue.stopped = false) : Halts o [cue] := by
  intro pre post hsplit hpre hpost
  cases pre with
  | nil =>
    rw [List.nil_append] at hsplit
    rw [hpost cue (by simp [← hsplit])] at hcalm
    cases hcalm
  | cons cue' pre =>
    rw [List.cons_append, List.cons.injEq, List.nil_eq, List.append_eq_nil_iff] at hsplit
    obtain ⟨-, -, rfl⟩ := hsplit
    exact ⟨[], [], rfl, .none _, by simp⟩

/-- Cues of which the first finds the run going on may follow others. -/
theorem append (hxs : Halts o xs) (hys : Halts o ys) (hcalm : Calm ys) : Halts o (xs ++ ys) := by
  intro pre post hsplit hpre hpost
  rcases List.append_eq_append_iff.1 hsplit with ⟨pre', rfl, rfl⟩ | ⟨xs', rfl, rfl⟩
  -- the moment comes up in the second part, unless it comes before the first cue of it
  · cases pre' with
    | nil =>
      rw [List.nil_append] at hcalm
      rw [hcalm.eq_nil hpost]
      exact ⟨[], [], rfl, .none _, by simp⟩
    | cons cue pre' =>
      obtain ⟨late, closings, hpost', hlate, hclosings⟩ := hys (cue :: pre') post rfl
        (fun c hc => hpre c (List.mem_append_right xs hc)) hpost
      exact ⟨late, closings, hpost', hlate.prepend (List.cons_ne_nil cue pre') xs, hclosings⟩
  -- it comes up in the first part, so there is no second one
  · have hnil : ys = [] := hcalm.eq_nil fun c hc => hpost c (List.mem_append_right xs' hc)
    rw [hnil, List.append_nil]
    exact hxs pre xs' rfl hpre fun c hc => hpost c (List.mem_append_left ys hc)

/-- Slots after something may follow any cues. -/
theorem close (hxs : Halts o xs) {ss : List SlotCue}
    (hss : ∀ s ∈ ss, s.event.point.isBefore = false) : Halts o (xs ++ ss.map .slot) := by
  intro pre post hsplit hpre hpost
  rcases List.append_eq_append_iff.1 hsplit with ⟨pre', rfl, hss'⟩ | ⟨xs', rfl, rfl⟩
  · obtain ⟨first, second, rfl, rfl, rfl⟩ := List.map_eq_append_iff.1 hss'
    exact ⟨[], second, rfl, .none _, fun s hs => hss s (List.mem_append_right first hs)⟩
  · obtain ⟨late, closings, rfl, hlate, hclosings⟩ :=
      hxs pre xs' rfl hpre fun c hc => hpost c (List.mem_append_left _ hc)
    refine ⟨late, closings ++ ss, by simp, hlate, fun s hs => ?_⟩
    rcases List.mem_append.1 hs with hs | hs
    · exact hclosings s hs
    · exact hss s hs

end Halts

/-- The start of a node and the slots on entering it. -/
theorem Passage.Crosses.halts_entry {o : RunOptions} {n : HookScope} {status : Status}
    {p : Passage} (h : p.Crosses o n status) {start : Cue} (hstart : start.Starts n)
    (hfirst : ∀ s, p.before.head? = some s → s.stopped = start.stopped)
    (hopening : start.stopped = true → Late o [] (start :: p.before.map .slot)) :
    Halts o (start :: p.before.map .slot) := by
  intro pre post hsplit hpre hpost
  cases pre with
  | nil =>
    rw [List.nil_append] at hsplit
    subst hsplit
    exact ⟨_, [], by simp, hopening (hpost start (by simp)), by simp⟩
  | cons cue pre =>
    rw [List.cons_append, List.cons.injEq] at hsplit
    obtain ⟨rfl, hsplit⟩ := hsplit
    obtain ⟨opened, rest, hbefore, rfl, rfl⟩ := List.map_eq_append_iff.1 hsplit
    refine ⟨rest.map .slot, [], by simp, ?_, by simp⟩
    cases rest with
    | nil => exact .none _
    | cons s rest =>
      -- the first slot finds the run as the start of the node does
      have hopened : opened ≠ [] := by
        rintro rfl
        have hsame := hfirst s (by rw [hbefore]; rfl)
        have hlate : s.stopped = true := hpost (.slot s) (by simp)
        rw [hpre start (by simp), hlate] at hsame
        cases hsame
      have hok : ∀ s ∈ opened, s.isOk = true := by
        intro s' hs'
        refine h.steady s' ?_
        rw [hbefore, List.dropLast_append_of_ne_nil (List.cons_ne_nil s rest)]
        exact List.mem_append_left _ hs'
      have hentry := h.entry
      rw [hbefore] at hentry
      have hlate : Late o ([] ++ start :: opened.map .slot) ((s :: rest).map .slot) :=
        .entry hstart hopened hok hentry
      exact hlate

/-- The start of a step, the slot before it and the call of its implementation. -/
theorem halts_call {o : RunOptions} {f : FindCue} {before : SlotCue} {c : CallCue}
    (hcalm : f.stopped = false) (hfirst : before.stopped = f.stopped)
    (hevent : before.event = ⟨.beforeStep, .step f.step, none⟩) (hok : before.isOk = true)
    (hstep : c.step = f.step) : Halts o [.find f, .slot before, .call c] := by
  intro pre post hsplit hpre hpost
  have hgoing : ∀ cue ∈ [Cue.find f, .slot before], cue.stopped = false := by
    simp [Cue.stopped, hfirst, hcalm]
  -- only the call can be late: the slot finds the run going on if the start does
  rcases pre with _ | ⟨cue, _ | ⟨cue', _ | ⟨cue'', rest⟩⟩⟩
  · rw [List.nil_append] at hsplit
    have hlate := hpost (.find f) (by simp [← hsplit])
    rw [hgoing (.find f) (by simp)] at hlate
    cases hlate
  · rw [List.cons_append, List.nil_append, List.cons.injEq] at hsplit
    have hlate := hpost (.slot before) (by simp [← hsplit.2])
    rw [hgoing (.slot before) (by simp)] at hlate
    cases hlate
  · simp only [List.cons_append, List.nil_append, List.cons.injEq] at hsplit
    obtain ⟨rfl, rfl, rfl⟩ := hsplit
    have hlate : Late o ([] ++ [.find f, .slot before]) [.call c] := .call hevent hok hstep
    exact ⟨[.call c], [], rfl, hlate, by simp⟩
  · simp only [List.cons_append, List.cons.injEq, List.nil_eq, List.append_eq_nil_iff] at hsplit
    obtain ⟨-, -, -, -, rfl⟩ := hsplit
    exact ⟨[], [], rfl, .none _, by simp⟩

namespace Nested

variable {o : RunOptions} {q : Stretch} {cues : List Cue}

theorem calm (h : Nested o .alone q cues) (hq : q ≠ .node .suite) : Calm cues := by
  induction h with
  | nil => simp [Calm]
  | bare calm =>
    rintro cue ⟨⟩
    exact calm
  | step calm =>
    rintro cue ⟨⟩
    exact calm
  | node level calm =>
    rintro cue ⟨⟩
    refine calm ?_
    rintro rfl
    exact hq rfl
  | @cons n m cues rest hholds hfirst hrest ihfirst ihrest =>
    refine (ihfirst ?_).append (ihrest (by simp))
    rintro ⟨⟩
    cases n <;> cases hholds

/-- Nodes and steps are started only while the run is not to stop, except the suite. -/
theorem start_calm (h : Nested o .alone q cues) :
    ∀ cue ∈ cues, cue.isStart = true →
      cue.stopped = false ∨ ∃ start : EnterCue, cue = .enter start ∧ start.level = .suite := by
  have hslots : ∀ (p : Passage) (inside : List Cue) (cue : Cue), cue ∈ p.around inside →
      cue.isStart = true → cue ∈ inside := by
    intro p inside cue hcue hstart
    rcases Passage.mem_around.1 hcue with ⟨s, -, rfl⟩ | hcue
    · cases hstart
    · exact hcue
  induction h with
  | nil => simp
  | bare calm =>
    intro cue hcue hstart
    rw [List.mem_singleton] at hcue
    rw [hcue]
    exact .inl calm
  | @step f m p call status calm =>
    intro cue hcue hstart
    rcases List.mem_cons.1 hcue with rfl | hcue
    · exact .inl calm
    · obtain ⟨c, -, rfl⟩ := List.mem_map.1 (hslots p _ cue hcue hstart)
      cases hstart
  | @node n start p inside status level calm first crosses barred hinside ih =>
    intro cue hcue hstart
    rcases List.mem_cons.1 hcue with rfl | hcue
    · cases n with
      | suite => exact .inr ⟨start, rfl, level⟩
      | _ => exact .inl (calm (by simp))
    · exact ih cue (hslots p inside cue hcue hstart) hstart
  | cons hholds hfirst hrest ihfirst ihrest =>
    intro cue hcue hstart
    rcases List.mem_append.1 hcue with hcue | hcue
    · exact ihfirst cue hcue hstart
    · exact ihrest cue hcue hstart

theorem halts (h : Nested o .alone q cues) : Halts o cues := by
  induction h with
  | nil => exact .nil
  | bare calm => exact .single calm
  | @step f m p call status calm hdry hfound first crosses calls own =>
    have hcalm : f.stopped = false := calm
    cases call with
    | none =>
      have hentry : Halts o (.find f :: p.before.map .slot) := by
        refine crosses.halts_entry rfl first fun hstopped => ?_
        rw [Cue.stopped, hcalm] at hstopped
        cases hstopped
      exact (hentry.append .nil (by simp [Calm])).close crosses.isAfter
    | some c =>
      have hproceeds : p.proceeds = true := calls.symm
      have hevents := crosses.complete hproceeds
      rw [RunOptions.entry, RunOptions.called, hdry] at hevents
      obtain ⟨before, hbefore, hevent⟩ := List.map_eq_singleton_iff.1 hevents
      have hok : before.isOk = true := by
        rw [Passage.proceeds, hbefore] at hproceeds
        simpa using hproceeds
      have hcall : Halts o [.find f, .slot before, .call c] :=
        halts_call hcalm (first before (by rw [hbefore]; rfl)) hevent hok (own c rfl).2
      rw [Passage.around, hbefore]
      exact hcall.close crosses.isAfter
  | @node n start p inside status level calm first crosses barred hinside ih =>
    have hentry : Halts o (.enter start :: p.before.map .slot) := by
      refine crosses.halts_entry level first fun hstopped => ?_
      have hsuite : n = .suite := by
        cases n with
        | suite => rfl
        | _ =>
          have hcalm : start.stopped = false := calm (by simp)
          rw [Cue.stopped, hcalm] at hstopped
          cases hstopped
      subst hsuite
      exact .opening level crosses.entry
    exact (hentry.append ih (hinside.calm (by simp))).close crosses.isAfter
  | @cons n m cues rest hholds hfirst hrest ihfirst ihrest =>
    exact ihfirst.append ihrest (hrest.calm (by simp))

end Nested

/-- If the wish to stop only rises, there is a moment at which it comes up. -/
theorem exists_split {cues : List Cue}
    (h : cues.Pairwise fun x y => x.stopped = true → y.stopped = true) :
    ∃ pre post : List Cue, cues = pre ++ post ∧ (∀ c ∈ pre, c.stopped = false) ∧
      ∀ c ∈ post, c.stopped = true := by
  induction cues with
  | nil => exact ⟨[], [], rfl, by simp, by simp⟩
  | cons cue rest ih =>
    obtain ⟨hcue, hrest⟩ := List.pairwise_cons.1 h
    cases hstopped : cue.stopped with
    | true =>
      exact ⟨[], cue :: rest, rfl, by simp,
        List.forall_mem_cons.2 ⟨hstopped, fun c hc => hcue c hc hstopped⟩⟩
    | false =>
      obtain ⟨pre, post, rfl, hpre, hpost⟩ := ih hrest
      exact ⟨cue :: pre, post, rfl, List.forall_mem_cons.2 ⟨hstopped, hpre⟩, hpost⟩

/-- The cues of a run that may have to stop: those before that moment, some late ones, and the
slots that close whatever is open after them. -/
inductive Halted (o : RunOptions) : List Cue → Prop where
  | intro {pre late : List Cue} {closings : List SlotCue} {opened : List HookEvent}
      (hpre : ∀ cue ∈ pre, cue.stopped = false)
      (hpost : ∀ cue ∈ late ++ closings.map .slot, cue.stopped = true) (hlate : Late o pre late)
      (hclosings : ∀ s ∈ closings, s.event.point.isBefore = false)
      (hopened : unclosed [] (pre ++ late) = some opened)
      (hclosed : unclosed opened (closings.map .slot) = some []) :
      Halted o (pre ++ (late ++ closings.map .slot))

theorem Halts.halted {o : RunOptions} {cues : List Cue} (h : Halts o cues)
    (hrises : cues.Pairwise fun x y => x.stopped = true → y.stopped = true)
    (hclosed : unclosed [] cues = some []) : Halted o cues := by
  obtain ⟨pre, post, rfl, hpre, hpost⟩ := exists_split hrises
  obtain ⟨late, closings, rfl, hlate, hclosings⟩ := h pre post rfl hpre hpost
  rw [← List.append_assoc, unclosed_append, Option.bind_eq_some_iff] at hclosed
  obtain ⟨opened, hopened, hclosed⟩ := hclosed
  exact .intro hpre hpost hlate hclosings hopened hclosed

namespace Runner

/-- A run that was to stop after a deed is to stop in the end. -/
theorem isStopped_of_mem_past (r : Runner W) (w : Work α) (s : Stage W)
    (hpast : ∀ d ∈ s.past, d.isStopped = true → s.isStopped = true) :
    ∀ d ∈ (r.perform w s).1.past, d.isStopped = true → (r.perform w s).1.isStopped = true := by
  induction w generalizing s with
  | done a => exact hpast
  | ask q next ih =>
    refine ih _ _ ?_
    intro d hd hstopped
    rcases List.mem_cons.1 hd with rfl | hd
    · exact hstopped
    · exact (r.admits_answer s q).rises (hpast d hd hstopped)

variable (r : Runner W) (suite : Suite) (world : W) (cancelled : Bool)

/-- If a run was to stop at any moment, it is to stop in the end. -/
theorem isStopped_run
    (h : cancelled = true ∨ ∃ d ∈ (r.run suite world cancelled).stage.past, d.isStopped = true) :
    (r.run suite world cancelled).stage.isStopped = true := by
  have hstart : (Stage.start world cancelled).isStopped = cancelled := Bool.or_false cancelled
  unfold run at h ⊢
  split
  · rename_i m hinvalid
    rw [hinvalid] at h
    rcases h with h | ⟨d, hd, -⟩
    · rw [hstart, h]
    · cases hd
  · rename_i hvalid
    rw [hvalid] at h
    rcases h with h | ⟨d, hd, hstopped⟩
    · exact r.isStopped_perform _ _ (hstart.trans h)
    · exact r.isStopped_of_mem_past _ _ (by simp [Stage.start]) d hd hstopped

/-- Once a run is to stop, no node, attempt or step is started any more; the opening of the run
apart, user code is called for the entry or the step under way and for what is on the way
out. What was not started is skipped, and the run counts as cancelled. -/
theorem run_halts :
    (∀ cue ∈ r.cues suite world cancelled, cue.isStart = true → cue.stopped = false ∨
      ∃ start : EnterCue, cue = .enter start ∧ start.level = .suite) ∧
    Halted r.options (r.cues suite world cancelled) ∧
    ∀ result, (r.run suite world cancelled).report? = some result →
      (cancelled = true ∨ (∃ d ∈ (r.run suite world cancelled).stage.past, d.isStopped = true) →
        result.cancelled = true) ∧
      ∃ a : RunAccount,
        a.Sound (r.terms suite world cancelled) cancelled (r.options.plan suite) ∧
        a.cues = r.cues suite world cancelled ∧ result.scenarios = a.scenarios.map (·.result) ∧
        ∀ s ∈ a.scenarios,
          (s.attempts = [] → s.result.attempts = 0 ∧ s.result.status = .skipped ∧
            ∀ step ∈ s.result.steps, step.status = .skipped) ∧
          ∀ x, s.kept = some x → s.result.steps = x.steps.map (·.result) ∧
            ∀ y ∈ x.steps, y.start = none → y.result = .skipped y.step y.background := by
  have hcues : (∀ cue ∈ r.cues suite world cancelled, cue.isStart = true → cue.stopped = false ∨
      ∃ start : EnterCue, cue = .enter start ∧ start.level = .suite) ∧
      Halted r.options (r.cues suite world cancelled) := by
    cases hvalid : suite.violation? with
    | some m =>
      have hnil : r.cues suite world cancelled = [] := by
        rw [cues, r.run_malformed suite world cancelled hvalid]
        rfl
      rw [hnil]
      exact ⟨by simp, Halts.nil.halted .nil rfl⟩
    | none =>
      obtain ⟨ending, hcourse, -⟩ := r.course_run suite world cancelled hvalid
      obtain ⟨a, ha, -, hcues⟩ := r.exists_account suite world cancelled hvalid
      rw [← hcues] at hcourse ⊢
      exact ⟨ha.nested.start_calm,
        ha.nested.halts.halted hcourse.pairwise_rises.2.2.2 (ha.nested.unclosed [])⟩
  refine ⟨hcues.1, hcues.2, ?_⟩
  intro result hresult
  obtain ⟨a, ha, rfl, hcues, -⟩ := r.exists_account_of_report suite world cancelled hresult
  refine ⟨fun hstopped => ?_, a, ha, hcues, ha.scenarios_result, ?_⟩
  · rw [ha.result]
    exact r.isStopped_run suite world cancelled hstopped
  · intro s hs
    obtain ⟨e, backgrounds, hsound⟩ := ha.scenario hs
    refine ⟨hsound.untouched, fun x hx => ?_⟩
    obtain ⟨hkept, hresult⟩ := hsound.kept hx
    refine ⟨?_, hkept.skipped⟩
    rw [hresult]
    exact hkept.steps_result

/-- A run that is stopped while its feature is entered. -/
theorem run_halts_single :
    let r := ofHooks (Hooks.none.register .beforeFeature fun _ => .cancel (.done .ok))
    let suite := Suite.single (.named "scenario")
    Halted r.options (r.cues suite () false) ∧
      ∃ result, (r.run suite () false).report? = some result ∧ result.cancelled = true ∧
        result.scenarios.map (·.attempts) = [0] := by
  intro r suite
  have hreport : (r.run suite () false).report?.any
      (fun result => result.scenarios.map (·.attempts) == [0]) = true := by decide
  obtain ⟨result, hresult, hattempts⟩ := (Option.any_eq_true _ _).1 hreport
  obtain ⟨-, hhalted, hcancelled⟩ := r.run_halts suite () false
  exact ⟨hhalted, result, hresult, (hcancelled result hresult).1 (.inr (by decide)),
    beq_iff_eq.1 hattempts⟩

end Runner

end Rehearsal
