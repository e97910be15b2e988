import Rehearsal.Proofs.Account.Moves
import Rehearsal.Proofs.Failures

/-!
# Fatal errors

How a run may end: over a malformed suite with the violation and before anything is done; with a
fatal error if one of the two slots around it has failed and no hook of the slot has asked that the
run be stopped; and with a result otherwise.

`Spans` splits the cues of a run into its first slot, its last one and what lies between.
`FatalError.Tells` says what a fatal error and the result in it have to say of these two slots.
-/

namespace Rehearsal

/-- The texts stand in the longer one, one after the other. -/
def Recites : List Char → List String → Prop
  | _, [] => True
  | text, m :: ms => ∃ before after, text = before ++ m.toList ++ after ∧ Recites after ms

namespace Recites

variable {text text' : List Char} {ms ms' : List String}

theorem prepend (h : Recites text ms) (more : List Char) : Recites (more ++ text) ms := by
  cases ms with
  | nil => trivial
  | cons m ms =>
    obtain ⟨before, after, rfl, hrest⟩ := h
    exact ⟨more ++ before, after, by simp, hrest⟩

theorem append (h : Recites text ms) (h' : Recites text' ms') :
    Recites (text ++ text') (ms ++ ms') := by
  induction ms generalizing text with
  | nil => exact h'.prepend text
  | cons m ms ih =>
    obtain ⟨before, after, rfl, hrest⟩ := h
    exact ⟨before, after ++ text', by simp, ih hrest⟩

end Recites

theorem exists_intercalate_cons (m : String) (ms : List String) :
    ∃ more : List Char,
      ("\n".intercalate (m :: ms)).toList = m.toList ++ (more ++ ("\n".intercalate ms).toList) := by
  cases ms with
  | nil => exact ⟨[], by simp⟩
  | cons m' ms =>
    refine ⟨['\n'], ?_⟩
    rw [← List.singleton_append, String.intercalate_append_of_ne_nil (by simp) (by simp)]
    simp

theorem recites_intercalate (ms : List String) : Recites ("\n".intercalate ms).toList ms := by
  induction ms with
  | nil => trivial
  | cons m ms ih =>
    obtain ⟨more, hsplit⟩ := exists_intercalate_cons m ms
    exact ⟨[], more ++ ("\n".intercalate ms).toList, by simpa using hsplit, ih.prepend more⟩

namespace SlotCue

/-- A hook of the slot has failed, and none that failed has asked that the run be stopped. -/
def FailsOutright (s : SlotCue) : Prop := s.failures ≠ [] ∧ ∀ f ∈ s.failures, f.stop = false

theorem message?_of_failures_nil {s : SlotCue} (h : s.failures = []) : s.message? = none := by
  have hempty : (s.reply.outcomes.filterMap Outcome.failure?).isEmpty = true := by
    rw [List.isEmpty_iff]
    exact h
  simp [message?, call, Hooks.error?, hempty]

theorem exists_message_of_failures {s : SlotCue} (h : s.failures ≠ []) :
    ∃ m, s.message? = some m ∧ Recites m.toList (s.failures.map (·.message)) := by
  refine ⟨_, by rw [message?, error?_of_failures h]; rfl, ?_⟩
  rw [HookError.message, String.toList_append]
  exact (recites_intercalate _).prepend _

/-- The error of a slot that fails outright. -/
theorem fatal?_of_failsOutright {s : SlotCue} (h : s.FailsOutright) :
    s.call.fatal? =
      some ⟨s.event.point, "\n".intercalate (s.failures.map (·.message)), false⟩ := by
  have hstop : s.failures.any (·.stop) = false := by simpa using h.2
  rw [SlotCall.fatal?, error?_of_failures h.1, hstop]
  rfl

theorem fatal?_of_not_failsOutright {s : SlotCue} (h : ¬ s.FailsOutright) :
    s.call.fatal? = none := by
  have hsome := s.isSome_fatal?
  rwa [Bool.eq_false_iff.2 (mt s.fails_iff.1 h), Option.isSome_eq_false_iff,
    Option.isNone_iff_eq_none] at hsome

end SlotCue

/-- The message of some slots recites whatever has failed in them. -/
theorem HookReport.recites_ofSlots {ss : List SlotCue} {text : String}
    (h : (ofSlots ss).message? = some text) :
    Recites text.toList ((ss.flatMap (·.failures)).map (·.message)) := by
  have hlines : text = "\n".intercalate (ss.filterMap (·.message?)) := by
    rw [message?, messages_ofSlots] at h
    split at h
    · cases h
    · exact (Option.some.inj h).symm
  rw [hlines]
  clear h hlines
  induction ss with
  | nil => trivial
  | cons s ss ih =>
    by_cases hnil : s.failures = []
    · simpa [SlotCue.message?_of_failures_nil hnil, hnil] using ih
    · obtain ⟨m, hm, hrecites⟩ := SlotCue.exists_message_of_failures hnil
      obtain ⟨more, hsplit⟩ := exists_intercalate_cons m (ss.filterMap (·.message?))
      rw [List.filterMap_cons_some hm, hsplit, List.flatMap_cons, List.map_append]
      exact hrecites.append (ih.prepend more)

theorem HookReport.message?_ofSlots_isSome {ss : List SlotCue} {s : SlotCue} (hs : s ∈ ss)
    (hne : s.failures ≠ []) : ∃ text, (ofSlots ss).message? = some text := by
  obtain ⟨f, hf⟩ := List.exists_mem_of_ne_nil _ hne
  obtain ⟨text, htext, -⟩ := mentions_ofSlots hs hf
  exact ⟨text, htext⟩

/-- Nothing has happened to the feature: it is skipped with everything in it. -/
structure FeatureResult.Untouched (f : FeatureResult) : Prop where
  status : f.status = .skipped
  children : ∀ c ∈ f.children, c.status = .skipped
  scenarios : ∀ s ∈ f.scenarios, s.attempts = 0 ∧ s.status = .skipped ∧
    ∀ step ∈ s.steps, step.status = .skipped

theorem PlannedFeature.untouched_skipped (p : PlannedFeature) : p.skipped.Untouched where
  status := rfl
  children := p.status_skipped
  scenarios := by
    intro s hs
    obtain ⟨backgrounds, q, rfl⟩ := exists_of_mem_skipped hs
    exact q.untouched_skipped backgrounds

/-- The slots `first` and `last` are called before and after everything, and `between` them no slot
of the run as a whole. -/
structure Spans (cues : List Cue) (first last : SlotCue) (between : List Cue) : Prop where
  cues : ∃ start, cues = .enter start :: .slot first :: between ++ [.slot last]
  opens : first.event = ⟨.beforeAll, .suite, none⟩
  closes : ∃ status, last.event = ⟨.afterAll, .suite, some status⟩
  inside : ∀ s, .slot s ∈ between → s.event.point.isAll = false

/-- What a fatal error says of the slots `first` and `last` around the run. -/
structure FatalError.Tells (e : FatalError) (suite : Suite) (first last : SlotCue)
    (between : List Cue) : Prop where
  opening : first.FailsOutright →
    e.point = .beforeAll ∧ e.detail = "\n".intercalate (first.failures.map (·.message))
  closing : ¬ first.FailsOutright →
    e.point = .afterAll ∧ e.detail = "\n".intercalate (last.failures.map (·.message))
  status : .error ≤ e.result.status
  features : e.result.features.map (·.label) = suite.features.map (·.label)
  /-- After an opening that has failed nothing is called but the closing. -/
  barred : first.FailsOutright → between = [] ∧ ∀ f ∈ e.result.features, f.Untouched
  message : ∃ text, e.result.message = some text ∧
    Recites text.toList ((first.failures ++ last.failures).map (·.message))

namespace RunAccount

variable {t : Terms} {b : Bool} {p : Plan} {a : RunAccount} {first last : SlotCue}

theorem Sound.barred (h : a.Sound t b p) (hfail : a.passage.proceeds = false) :
    a.features.flatMap (·.cues) = [] ∧ ∀ f ∈ a.result.features, f.Untouched := by
  have hidle : ∀ f ∈ a.features, f.cues = [] ∧ f.result.Untouched := by
    intro f hf
    have hsound := h.inside f hf
    rw [hfail] at hsound
    cases hsound with
    | idle q hidle => exact ⟨(Work.idle_feature q).2.2, q.untouched_skipped⟩
    | visited he => cases he
  refine ⟨List.flatMap_eq_nil_iff.2 fun f hf => (hidle f hf).1, ?_⟩
  rw [h.features_result, List.forall_mem_map]
  exact fun f hf => (hidle f hf).2

theorem Sound.fatal_eq (h : a.Sound t b p) (hpassage : a.passage = ⟨[first], [last]⟩) :
    a.fatal = first.call.fatal?.or last.call.fatal? := by
  rw [h.fatal, hpassage]
  simp only [Passage.slots, List.singleton_append, List.findSome?_cons, List.findSome?_nil]
  cases first.call.fatal? <;> cases last.call.fatal? <;> rfl

/-- The account of a worthless run, and its error. -/
theorem Sound.tells (h : a.Sound t b p) (hpassage : a.passage = ⟨[first], [last]⟩)
    (hfirst : first.event.point = .beforeAll) (hlast : last.event.point = .afterAll)
    {suite : Suite} (hlabels : p.features.map (·.label) = suite.features.map (·.label))
    {between : List Cue} (hbetween : between.Perm (a.features.flatMap (·.cues)))
    {e : FatalError} (he : a.ending = .error e) : e.Tells suite first last between := by
  obtain ⟨err, hfatal, rfl⟩ :
      ∃ err, a.fatal = some err ∧ e = ⟨err.point, err.detail, a.result⟩ := by
    unfold ending at he
    split at he
    · rename_i err hfatal
      exact ⟨err, hfatal, (Except.error.inj he).symm⟩
    · cases he
  have hsome := h.fatal_eq hpassage
  rw [hfatal] at hsome
  refine ⟨fun hfails => ?_, fun hnot => ?_, ?_, h.map_label.trans hlabels, fun hfails => ?_, ?_⟩
  · rw [SlotCue.fatal?_of_failsOutright hfails, Option.some_or, Option.some.injEq] at hsome
    rw [hsome]
    exact ⟨hfirst, rfl⟩
  · rw [SlotCue.fatal?_of_not_failsOutright hnot, Option.none_or] at hsome
    by_cases hfails : last.FailsOutright
    · rw [SlotCue.fatal?_of_failsOutright hfails, Option.some.injEq] at hsome
      rw [hsome]
      exact ⟨hlast, rfl⟩
    · rw [SlotCue.fatal?_of_not_failsOutright hfails] at hsome
      cases hsome
  · obtain ⟨inner, -, -, hstatus⟩ := h.rollsUp.node
    rw [hstatus, hfatal]
    exact Status.le_max_right inner .error
  · have hfail : first.isOk = false := first.isOk_eq_false_iff.2 (.inl (first.fails_iff.2 hfails))
    have hproceeds : a.passage.proceeds = false := by
      rw [hpassage]
      simpa [Passage.proceeds] using hfail
    obtain ⟨hnone, huntouched⟩ := h.barred hproceeds
    exact ⟨(hnone ▸ hbetween).eq_nil, huntouched⟩
  · have hmessage : a.result.message = (HookReport.ofSlots [first, last]).message? := by
      rw [h.result, hpassage]
      rfl
    have hfailed : ∃ s ∈ [first, last], s.failures ≠ [] := by
      by_cases hfails : first.FailsOutright
      · exact ⟨first, by simp, hfails.1⟩
      · refine ⟨last, by simp, fun hnil => ?_⟩
        have hnot : ¬ last.FailsOutright := fun hlast => hlast.1 hnil
        rw [SlotCue.fatal?_of_not_failsOutright hfails,
          SlotCue.fatal?_of_not_failsOutright hnot] at hsome
        cases hsome
    obtain ⟨s, hs, hne⟩ := hfailed
    obtain ⟨text, htext⟩ := HookReport.message?_ofSlots_isSome hs hne
    refine ⟨text, hmessage.trans htext, ?_⟩
    simpa using HookReport.recites_ofSlots htext

end RunAccount

namespace Runner

variable {r : Runner W} {suite : Suite} {world : W} {cancelled : Bool} {xs : List (Turn W)}
  {e : Ended W}

/-- A dry run calls nothing and has a result. -/
theorem Goes.of_dry (h : r.Goes suite world cancelled xs e) (hdry : r.options.dryRun = true) :
    (∃ result, e.result = .ok result) ∧ ∀ x ∈ xs, x.request.isCall = false := by
  obtain ⟨k, a, ha, hresult, hunfolds⟩ := h.exists_account
  have hstart : ∀ cue ∈ a.cues, cue.isStart = true := ha.nested.isStart_of_dry hdry
  constructor
  · have hfatal : a.fatal = none := by
      rw [ha.fatal, List.findSome?_eq_none_iff]
      intro s hs
      cases hstart (.slot s) (List.mem_cons_of_mem _ (Passage.mem_around.2 (.inl ⟨s, hs, rfl⟩)))
    refine ⟨a.result, ?_⟩
    rw [hresult, RunAccount.ending, hfatal]
    rfl
  · rintro ⟨s, q⟩ hx
    have hcue : ∀ cue, Turn.cue? r ⟨s, q⟩ = some cue → cue.isStart = true := fun cue hcue =>
      hstart cue (hunfolds.perm.mem_iff.2 (List.mem_filterMap.2 ⟨_, hx, hcue⟩))
    cases q with
    | hooks event => cases hcue _ rfl
    | call m step => cases hcue _ rfl
    | _ => rfl

/-- What is called around any other run, and its fatal error if it has one. -/
theorem Goes.of_real (h : r.Goes suite world cancelled xs e) (hdry : r.options.dryRun = false) :
    ∃ first last between, Spans (xs.filterMap (·.cue? r)) first last between ∧
      ((∃ f, e.result = .error (.fatal f)) ↔ first.FailsOutright ∨ last.FailsOutright) ∧
      ((∃ result, e.result = .ok result) ↔ ¬ (first.FailsOutright ∨ last.FailsOutright)) ∧
      ∀ f, e.result = .error (.fatal f) → f.Tells suite first last between := by
  obtain ⟨k, a, ha, hresult, between, hcues, hperm, -⟩ := h.exists_account
  obtain ⟨first, last, hpassage, hfirst, hlast⟩ := ha.visited.crosses.suite hdry
  have hsome : a.fatal.isSome = true ↔ first.FailsOutright ∨ last.FailsOutright := by
    rw [ha.fatal_eq hpassage, Option.isSome_or, Bool.or_eq_true, first.isSome_fatal?,
      last.isSome_fatal?, first.fails_iff, last.fails_iff]
    exact Iff.rfl
  have hinside : ∀ s, .slot s ∈ between → s.event.point.isAll = false := by
    intro s hs
    obtain ⟨f, hf, hs⟩ := List.mem_flatMap.1 (hperm.mem_iff.1 hs)
    rcases (ha.inside f hf).nested with hnil | ⟨-, hnested⟩
    · rw [hnil] at hs
      cases hs
    · exact hnested.isAll (by simp) s hs
  refine ⟨first, last, between, ⟨⟨a.start, ?_⟩, hfirst, ⟨_, hlast⟩, hinside⟩, ?_, ?_, ?_⟩
  · rw [hcues, hpassage]
    rfl
  · rw [← hsome, hresult, RunAccount.ending]
    cases a.fatal <;> simp [Except.mapError]
  · rw [← hsome, hresult, RunAccount.ending]
    cases a.fatal <;> simp [Except.mapError]
  · intro f hf
    refine ha.tells hpassage (by rw [hfirst]) (by rw [hlast]) (r.options.map_label_plan suite)
      hperm ?_
    rw [hresult] at hf
    cases hending : a.ending with
    | ok result => simp [hending, Except.mapError] at hf
    | error f' => simpa [hending, Except.mapError] using hf

/-- How a run may end. Over a malformed suite it ends with the violation, and nothing is done. A dry
run over another suite calls nothing and has a result. Any other run calls the slot before
everything first and the one after everything last; it ends with a fatal error if and only if one of
the two has failed outright, and with a result otherwise. -/
theorem fatal_exact (r : Runner W) (suite : Suite) (world : W) (cancelled : Bool) :
    (∀ m, suite.violation? = some m →
      r.run suite world cancelled = ⟨.start world cancelled, .error (.malformed m)⟩ ∧
        ∀ moves, r.runThrough? suite world cancelled moves =
          some ⟨.start world cancelled, .error (.malformed m)⟩) ∧
    ∀ xs e, r.Goes suite world cancelled xs e →
      (∀ m, e.result ≠ .error (.malformed m)) ∧
      (r.options.dryRun = true →
        (∃ result, e.result = .ok result) ∧ ∀ x ∈ xs, x.request.isCall = false) ∧
      (r.options.dryRun = false →
        ∃ first last between, Spans (xs.filterMap (·.cue? r)) first last between ∧
          ((∃ f, e.result = .error (.fatal f)) ↔ first.FailsOutright ∨ last.FailsOutright) ∧
          ((∃ result, e.result = .ok result) ↔ ¬ (first.FailsOutright ∨ last.FailsOutright)) ∧
          ∀ f, e.result = .error (.fatal f) → f.Tells suite first last between) := by
  refine ⟨fun m hm => ⟨r.run_malformed suite world cancelled hm, fun moves => ?_⟩,
    fun xs e h => ⟨fun m hm => ?_, h.of_dry, h.of_real⟩⟩
  · rw [runThrough?, hm]
  · obtain ⟨k, a, -, hresult, -⟩ := h.exists_account
    rw [hresult] at hm
    cases hending : a.ending <;> simp [hending, Except.mapError] at hm

/-- A run in which both slots around it fail. -/
theorem fatal_exact_both :
    let r := ofHooks ((Hooks.none.register .beforeAll fun _ => .done (.error "boom" false)).register
      .afterAll fun _ => .done (.error "bang" false))
    let suite := Suite.single (.named "scenario")
    ∃ e, (r.run suite () false).result = .error (.fatal e) ∧ e.point = .beforeAll ∧
      (∀ f ∈ e.result.features, f.Untouched) ∧
      ∃ text, e.result.message = some text ∧ Recites text.toList ["boom", "bang"] := by
  intro r suite
  let xs := r.trail (r.options.runPlan (r.options.plan suite)) (.start () false)
  have hgoes : r.Goes suite () false xs (r.run suite () false) := .inOrder (by decide)
  obtain ⟨-, hends⟩ := r.fatal_exact suite () false
  obtain ⟨-, -, hreal⟩ := hends xs _ hgoes
  obtain ⟨first, last, between, hspans, hfatal, -, htells⟩ := hreal rfl
  obtain ⟨start, hcues⟩ := hspans.cues
  have hfailures : ((xs.filterMap (·.cue? r)).filterMap Cue.slot?).map (·.failures) =
      [[⟨"boom", false⟩], [⟨"bang", false⟩]] := by decide
  have hslots : ((xs.filterMap (·.cue? r)).filterMap Cue.slot?).map (·.failures) =
      first.failures :: ((between.filterMap Cue.slot?).map (·.failures) ++ [last.failures]) := by
    rw [hcues]
    simp [Cue.slot?, List.filterMap_cons]
  rw [hfailures, List.cons.injEq] at hslots
  obtain ⟨hfirst, hrest⟩ := hslots
  have hlast : last.failures = [⟨"bang", false⟩] := by
    have := congrArg List.getLast? hrest
    simpa using this.symm
  have houtright : first.FailsOutright := by
    rw [SlotCue.FailsOutright, ← hfirst]
    simp
  obtain ⟨e, he⟩ := hfatal.2 (.inl houtright)
  have ht := htells e he
  refine ⟨e, he, (ht.opening houtright).1, (ht.barred houtright).2, ?_⟩
  simpa [← hfirst, hlast] using ht.message

end Runner

end Rehearsal
