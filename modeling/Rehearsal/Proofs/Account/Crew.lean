import Mathlib.Data.List.OfFn
import Rehearsal.Proofs.Account.Run
import Rehearsal.Proofs.Crew

/-!
# Accounts of parallel runs

Every worker of a crew goes through a course of the work on its feature, done beside others
(`Crew.Follows`). So a parallel run has a sound account as well, whatever the schedule; its
cues are those of the run, but feature by feature.

`Runner.Ends` takes the two ways of running a suite together, and `Runner.Ends.exists_account`
says of both that there is an account.
-/

namespace Rehearsal

/-- What may be done alone may be done beside others. -/
theorem Work.Course.others {w : Work α} {b c : Bool} {cues : List Cue} {a : α}
    (h : w.Course .alone b cues a c) (k : Company) : w.Course k b cues a c := by
  induction h with
  | done a b => exact .done a b
  | ask hlet hallowed rest ih =>
    cases hlet
    cases k with
    | alone => exact .ask rfl hallowed ih
    | others => exact .ask id hallowed ih

/-- The worker has begun the work on the feature and has given the cues. The run was to stop when
the crew took over if `b` is true, and is to stop now if `now` is. -/
inductive Worker.Begun (o : RunOptions) (b now : Bool) (p : PlannedFeature) :
    Worker → List Cue → Prop where
  | waiting : Begun o b now p (.waiting p) []
  | busy {found : Context} {rest : Work FeatureResult} {given : List Cue} {last : Bool}
      (hlast : last = true → now = true)
      (h : ∀ {cues : List Cue} {r : FeatureResult} {c : Bool},
        rest.Course .others last cues r c →
          (o.runFeature p).Course .others b (given ++ cues) r c) :
      Begun o b now p (.busy found rest) given
  | finished {r : FeatureResult} {given : List Cue} {last : Bool} (hlast : last = true → now = true)
      (h : (o.runFeature p).Course .others b given r last) : Begun o b now p (.finished r) given

theorem Worker.Begun.mono {o : RunOptions} {b now later : Bool} {p : PlannedFeature} {w : Worker}
    {given : List Cue} (h : w.Begun o b now p given) (hlater : now = true → later = true) :
    w.Begun o b later p given := by
  cases h with
  | waiting => exact .waiting
  | busy hlast h => exact .busy (fun hb => hlater (hlast hb)) h
  | finished hlast h => exact .finished (fun hb => hlater (hlast hb)) h

/-- The crew is at the work on the features, each worker on its own. -/
structure Crew.Follows (o : RunOptions) (b : Bool) (ps : List PlannedFeature) (c : Crew W) :
    Prop where
  workers : ∀ (i : Nat) (p : PlannedFeature), ps[i]? = some p →
    ∃ w : Worker, c.workers[i]? = some w ∧ w.Begun o b c.isStopped p (c.cuesAt b i)
  length : c.workers.length = ps.length
  rises : b = true → c.isStopped = true
  last : stoppedAfter b (c.past.reverse.map (·.2)) = c.isStopped
  known : ∀ d ∈ c.past, d.1 < ps.length

namespace Crew

variable {r : Runner W} {context : Context} {b : Bool} {ps : List PlannedFeature} {c : Crew W}

theorem follows_start (o : RunOptions) (s : Stage W) (ps : List PlannedFeature) :
    (start s ps).Follows o s.isStopped ps where
  workers := by
    intro i p hp
    refine ⟨.waiting p, ?_, .waiting⟩
    rw [start, List.getElem?_map, hp]
    rfl
  length := List.length_map _
  rises := id
  last := rfl
  known := by simp [start]

/-- The feature of a worker that is there. -/
theorem Follows.exists_planned {o : RunOptions} (h : c.Follows o b ps) {i : Nat} {w : Worker}
    (hw : c.workers[i]? = some w) :
    ∃ p, ps[i]? = some p ∧ w.Begun o b c.isStopped p (c.cuesAt b i) := by
  have hi : i < ps.length := by
    rw [← h.length]
    exact (List.getElem?_eq_some_iff.1 hw).1
  obtain ⟨w', hw', hbegun⟩ := h.workers i ps[i] (List.getElem?_eq_getElem hi)
  obtain rfl := Option.some.inj (hw.symm.trans hw')
  exact ⟨ps[i], List.getElem?_eq_getElem hi, hbegun⟩

/-- A worker may change to another state that is right for its feature. -/
theorem Follows.set {o : RunOptions} (h : c.Follows o b ps) {i : Nat} {p : PlannedFeature}
    {w : Worker} (hp : ps[i]? = some p) (hw : w.Begun o b c.isStopped p (c.cuesAt b i)) :
    Follows o b ps { c with workers := c.workers.set i w } where
  workers := by
    intro j q hq
    obtain ⟨w', hw', hbegun⟩ := h.workers j q hq
    by_cases hij : i = j
    · subst hij
      obtain rfl := Option.some.inj (hp.symm.trans hq)
      exact ⟨w, by simp [(List.getElem?_eq_some_iff.1 hw').1], hw⟩
    · exact ⟨w', by simpa [hij] using hw', hbegun⟩
  length := by simpa using h.length
  rises := h.rises
  last := h.last
  known := h.known

/-- A worker that has a request answered goes on with the work on its feature. -/
theorem Follows.answered (h : c.Follows r.options b ps) {i : Nat} {found : Context} {q : Request}
    {next : q.Reply → Work FeatureResult}
    (hi : c.workers[i]? = some (.busy found (.ask q next))) :
    (c.answered r i found q next).Follows r.options b ps := by
  have hadmits := r.admits_answer (c.stage found []) q
  have hrise : c.isStopped = true → (c.answered r i found q next).isStopped = true :=
    hadmits.rises
  obtain ⟨p, hp, hbegun⟩ := h.exists_planned hi
  refine ⟨?_, by simpa [Crew.answered] using h.length, fun hb => hrise (h.rises hb), ?_, ?_⟩
  · intro j p' hp'
    rw [cuesAt_answered h.last]
    by_cases hij : i = j
    · subst hij
      obtain rfl := Option.some.inj (hp.symm.trans hp')
      have hlt := (List.getElem?_eq_some_iff.1 hi).1
      refine ⟨.busy (r.answer (c.stage found []) q).1.context
        (next (r.answer (c.stage found []) q).2), by simp [Crew.answered, hlt], ?_⟩
      rw [if_pos rfl]
      cases hbegun with
      | @busy _ _ _ last hlast hcourse =>
        have hnow : (c.answered r i found q next).isStopped = true →
            (c.answered r i found q next).isStopped = true := id
        refine .busy hnow fun hrest => ?_
        rw [List.append_assoc]
        exact hcourse (.ask hlast hadmits hrest)
    · obtain ⟨w, hw, hbegun⟩ := h.workers j p' hp'
      refine ⟨w, by simpa [Crew.answered, hij] using hw, ?_⟩
      rw [if_neg hij, List.append_nil]
      exact hbegun.mono hrise
  · rw [Crew.answered, List.reverse_cons, List.map_append, stoppedAfter_append]
    rfl
  · exact List.forall_mem_cons.2 ⟨(List.getElem?_eq_some_iff.1 hp).1, h.known⟩

theorem Follows.act (h : c.Follows r.options b ps) (i : Nat) :
    (c.act r context i).Follows r.options b ps := by
  rcases c.act_cases r context i with ⟨p, hi, -, hact⟩ | ⟨found, q, next, hi, hact⟩ |
    ⟨found, result, hi, hact⟩ | hact
  · obtain ⟨p', hp', hbegun⟩ := h.exists_planned hi
    rw [hact]
    refine h.set hp' ?_
    generalize c.cuesAt b i = given at hbegun
    cases hbegun
    exact .busy h.rises fun hrest => hrest
  · rw [hact]
    exact h.answered hi
  · obtain ⟨p, hp, hbegun⟩ := h.exists_planned hi
    rw [hact]
    refine h.set hp ?_
    cases hbegun with
    | busy hlast hcourse =>
      have hdone := hcourse (.done result _)
      rw [List.append_nil] at hdone
      exact .finished hlast hdone
  · rw [hact]
    exact h

/-- Whatever the schedule, a crew follows the work on its features. -/
theorem follows_follow (r : Runner W) (context : Context) (s : Stage W) (ps : List PlannedFeature)
    (schedule : List Nat) :
    (follow r context schedule (start s ps)).Follows r.options s.isStopped ps :=
  follow_preserves (P := fun c => c.Follows r.options s.isStopped ps) (fun _ i h => h.act i)
    (follows_start r.options s ps) schedule

/-- Once every feature has a result, each worker has gone through a course of its work. -/
theorem Follows.course {o : RunOptions} (h : c.Follows o b ps) {fs : List FeatureResult}
    (hfs : c.results? = some fs) (i : Fin ps.length) :
    ∃ f last, fs[i.1]? = some f ∧ (last = true → c.isStopped = true) ∧
      (o.runFeature ps[i]).Course .others b (c.cuesAt b i) f last := by
  obtain ⟨w, hw, hbegun⟩ := h.workers i ps[i] (List.getElem?_eq_getElem i.2)
  rw [workers_eq_of_results? hfs, List.getElem?_map] at hw
  obtain ⟨f, hf, rfl⟩ := Option.map_eq_some_iff.1 hw
  cases hbegun with
  | finished hlast hcourse => exact ⟨f, _, hf, hlast, hcourse⟩

end Crew

namespace Runner

variable {r : Runner W} {suite : Suite} {world : W} {cancelled : Bool}

/-- The ways in which a run over a suite may end: its features are gone through one after the
other, or by a crew that follows some schedule. -/
inductive Ends (r : Runner W) (suite : Suite) (world : W) (cancelled : Bool) : Ended W → Prop where
  | inOrder : Ends r suite world cancelled (r.run suite world cancelled)
  | bySchedule {schedule : List Nat} {e : Ended W}
      (h : r.runBy? suite world cancelled schedule = some e) : Ends r suite world cancelled e

end Runner

/-- The cues of a run that has ended; `cancelled` tells whether it was to stop from its
beginning. -/
def Ended.cues (cancelled : Bool) (e : Ended W) : List Cue := cuesOf cancelled e.stage.past.reverse

/-- The accounts of features, given one for each with the cues at its index. -/
theorem FeatureAccount.exists_list (ps : List PlannedFeature) (fs : List FeatureResult)
    {Q : FeatureAccount → Prop} (cuesAt : Nat → List Cue) (hlength : fs.length = ps.length)
    (h : ∀ i : Fin ps.length, ∃ a : FeatureAccount, Q a ∧ a.planned = ps[i] ∧
      fs[i.1]? = some a.result ∧ a.cues = cuesAt i) :
    ∃ as : List FeatureAccount, (∀ a ∈ as, Q a) ∧ as.map (·.planned) = ps ∧
      as.map (·.result) = fs ∧ as.map (·.cues) = (List.range ps.length).map cuesAt := by
  choose f hsound hplanned hresult hcues using h
  refine ⟨List.ofFn f, ?_, ?_, ?_, ?_⟩
  · simpa using hsound
  · refine List.ext_getElem (by simp) fun i hi hi' => ?_
    simpa using hplanned ⟨i, hi'⟩
  · refine List.ext_getElem (by simpa using hlength.symm) fun i hi hi' => ?_
    have hat := hresult ⟨i, hlength ▸ hi'⟩
    rw [List.getElem?_eq_getElem hi', Option.some.injEq] at hat
    simpa using hat.symm
  · refine List.ext_getElem (by simp) fun i hi hi' => ?_
    simpa using hcues ⟨i, by simpa using hi⟩

namespace Runner

variable {r : Runner W} {suite : Suite} {world : W} {cancelled : Bool}

/-- The closing of a run is a course, done alone. -/
theorem course_finish (r : Runner W) (opening : Opening) (t : Stage W) (fs : List FeatureResult) :
    ∃ (deeds : List Deed) (ending : Except FatalError RunResult),
      (r.finish opening t fs).stage.past = deeds.reverse ++ t.past ∧
      (r.finish opening t fs).result = ending.mapError .fatal ∧
      (r.options.closeRun opening fs).Course .alone t.isStopped (cuesOf t.isStopped deeds) ending
        (r.finish opening t fs).stage.isStopped := by
  obtain ⟨deeds, hpast, hcourse⟩ := r.course (r.options.closeRun opening fs) t
  exact ⟨deeds, _, hpast, rfl, hcourse⟩

/-- A run has an account if its features have accounts that fit to the opening. Between the
opening, which has left `s`, and the closing, which finds `t`, are the deeds `between`. -/
theorem exists_account_finish {s t : Stage W} {opening : Opening} {p : Plan}
    {fs : List FeatureResult} {between : List Deed}
    (hopen : r.perform r.options.openRun (.start world cancelled) = (s, opening))
    (hpast : t.past = between.reverse ++ s.past)
    (hlast : stoppedAfter s.isStopped between = t.isStopped)
    (hfeatures : ∀ (stopped : Bool), (t.isStopped = true → stopped = true) →
      ∀ {start : Bool} {before : List SlotCue},
        Work.Opens ⟨r.options, .others, stopped⟩ cancelled start before opening s.isStopped →
        ∃ as : List FeatureAccount,
          (∀ a ∈ as, a.Sound ⟨r.options, .others, stopped⟩ (before.all (·.isOk))) ∧
          as.map (·.planned) = p.features ∧ as.map (·.result) = fs ∧
          (as.flatMap (·.cues)).Perm (cuesOf s.isStopped between)) :
    ∃ a : RunAccount,
      a.Sound ⟨r.options, .others, (r.finish opening t fs).stage.isStopped⟩ cancelled p ∧
      (r.finish opening t fs).result = a.ending.mapError .fatal ∧
      a.cues.Perm ((r.finish opening t fs).cues cancelled) := by
  have hstart : (Stage.start world cancelled).isStopped = cancelled := Bool.or_false cancelled
  obtain ⟨first, hfirst, hcourse⟩ := r.course r.options.openRun (.start world cancelled)
  have hstopped := r.stoppedAfter_perform r.options.openRun (.start world cancelled) hfirst
  rw [hopen, hstart] at hcourse hstopped
  rw [hopen] at hfirst
  obtain ⟨last, ending, hlastpast, hresult, hclose⟩ := r.course_finish opening t fs
  generalize r.finish opening t fs = e at *
  let terms : Terms := ⟨r.options, .others, e.stage.isStopped⟩
  obtain ⟨start, before, hcues, hopening⟩ :=
    Work.course_openRun (t := terms) (hcourse.others .others)
  obtain ⟨as, hsound, hplanned, rfl, hperm⟩ :=
    hfeatures e.stage.isStopped hclose.pairwise_rises.1 hopening
  obtain ⟨a, ha, rfl, rfl, hbegin, rfl, hend⟩ :=
    Work.course_closeRun hopening hplanned hsound rfl (hclose.others .others)
  refine ⟨a, ha, hresult, ?_⟩
  have hdeeds : e.stage.past.reverse = first ++ between ++ last := by
    rw [hlastpast, hpast, hfirst]
    simp [Stage.start]
  rw [Ended.cues, hdeeds, cuesOf_append, cuesOf_append, stoppedAfter_append, hstopped, hlast, hcues,
    ← hend, RunAccount.cues, Passage.around, hbegin]
  exact ((hperm.append_left _).append_right _).cons _

theorem exists_account_runBy {schedule : List Nat} {e : Ended W}
    (hvalid : suite.violation? = none) (h : r.runBy? suite world cancelled schedule = some e) :
    ∃ a : RunAccount,
      a.Sound ⟨r.options, .others, e.stage.isStopped⟩ cancelled (r.options.plan suite) ∧
      e.result = a.ending.mapError .fatal ∧ a.cues.Perm (e.cues cancelled) := by
  rcases hopen : r.perform r.options.openRun (.start world cancelled) with ⟨s, opening⟩
  rcases runBy_cases hvalid hopen h with ⟨hfatal, rfl⟩ | ⟨hfatal, fs, hfs, rfl⟩
  · have hpast : s.past = ([] : List Deed).reverse ++ s.past := rfl
    refine exists_account_finish hopen hpast rfl fun stopped hstop start before hopening => ?_
    obtain ⟨as, hsound, hplanned, hresults, hcues⟩ := hopening.skipped hfatal
      (r.options.plan suite).features
    exact ⟨as, hsound, hplanned, hresults, .of_eq hcues⟩
  · have hfollows := Crew.follows_follow r s.context s (r.options.plan suite).features schedule
    generalize Crew.follow r s.context schedule (.start s (r.options.plan suite).features) = c at *
    have hpast : (c.stage s.context s.past).past =
        (c.past.reverse.map (·.2)).reverse ++ s.past := by
      simp [Crew.stage]
    refine exists_account_finish hopen hpast hfollows.last fun stopped hstop start before
      hopening => ?_
    have hnone : before.findSome? (fun s => s.call.fatal?) = none := by
      rw [← hopening.fatal]
      simpa using hfatal
    obtain ⟨as, hsound, hplanned, hresults, hcues⟩ :=
      FeatureAccount.exists_list (r.options.plan suite).features fs (c.cuesAt s.isStopped)
        (Q := fun a => a.Sound ⟨r.options, .others, stopped⟩ (before.all (·.isOk)))
        (by rw [← hfollows.length, Crew.workers_eq_of_results? hfs, List.length_map]) fun i => by
        obtain ⟨f, last, hf, hlast, hcourse⟩ := hfollows.course hfs i
        obtain ⟨a, ha, hplanned, rfl, hcues⟩ :=
          Work.course_feature (t := ⟨r.options, .others, stopped⟩) hnone hopening.enters.stops
            (fun h => hstop (hlast h)) hcourse
        exact ⟨a, ha, hplanned, hf, hcues⟩
    refine ⟨as, hsound, hplanned, hresults, ?_⟩
    rw [List.flatMap, hcues]
    exact Crew.perm_cuesAt hfollows.known

/-- Every run over a well-formed suite, in order or by a schedule, has a result and a sound account
with the cues of the run, feature by feature. -/
theorem Ends.exists_account {e : Ended W} (h : r.Ends suite world cancelled e)
    (hvalid : suite.violation? = none) :
    ∃ (k : Company) (a : RunAccount),
      a.Sound ⟨r.options, k, e.stage.isStopped⟩ cancelled (r.options.plan suite) ∧
      e.report? = some a.result ∧ a.cues.Perm (e.cues cancelled) := by
  cases h with
  | inOrder =>
    obtain ⟨a, ha, hresult, hcues⟩ := r.exists_account suite world cancelled hvalid
    exact ⟨.alone, a, ha, Ended.report?_eq hresult, .of_eq hcues⟩
  | bySchedule h =>
    obtain ⟨a, ha, hresult, hcues⟩ := exists_account_runBy hvalid h
    exact ⟨.others, a, ha, Ended.report?_eq hresult, hcues⟩

/-- A run over a malformed suite has no result. -/
theorem Ends.violation?_eq_none {e : Ended W} (h : r.Ends suite world cancelled e)
    {result : RunResult} (hreport : e.report? = some result) : suite.violation? = none := by
  cases hvalid : suite.violation? with
  | none => rfl
  | some m =>
    cases h with
    | inOrder =>
      rw [r.run_malformed suite world cancelled hvalid] at hreport
      cases hreport
    | bySchedule h =>
      rw [runBy?, hvalid] at h
      cases h
      cases hreport

end Runner

end Rehearsal
