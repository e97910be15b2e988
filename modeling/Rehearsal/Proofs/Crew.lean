import Rehearsal.Proofs.Course
import Rehearsal.Proofs.Grouping
import Rehearsal.Run.Crew

/-!
# What crews do

A worker that acts takes its feature up, has a request answered, or puts its result down; what
it may not do leaves the crew as it is (`Crew.act_cases`). Everything that is said of crews on
any schedule is shown for these four ways and carried through the schedule by
`Crew.follow_preserves`.

A cue in a crew belongs to the worker that has given it, so `Crew.cuesAt` sorts the cues of a
crew without loss (`Crew.perm_cuesAt`). A crew never gets stuck: whatever it has done, it can be
followed until all features are finished (`Crew.exists_finish`).
-/

namespace Rehearsal

/-- Was the run to stop after the deeds? Before them it was if `b` is true. -/
def stoppedAfter : Bool → List Deed → Bool
  | b, [] => b
  | _, d :: rest => stoppedAfter d.isStopped rest

theorem stoppedAfter_append (b : Bool) (first second : List Deed) :
    stoppedAfter b (first ++ second) = stoppedAfter (stoppedAfter b first) second := by
  induction first generalizing b with
  | nil => rfl
  | cons d rest ih => exact ih d.isStopped

theorem cuesOf_append (b : Bool) (first second : List Deed) :
    cuesOf b (first ++ second) = cuesOf b first ++ cuesOf (stoppedAfter b first) second := by
  induction first generalizing b with
  | nil => rfl
  | cons d rest ih =>
    rw [List.cons_append, cuesOf, cuesOf, stoppedAfter, ih, List.append_assoc]

theorem Runner.stoppedAfter_perform (r : Runner W) (w : Work α) (s : Stage W) {deeds : List Deed}
    (hpast : (r.perform w s).1.past = deeds.reverse ++ s.past) :
    stoppedAfter s.isStopped deeds = (r.perform w s).1.isStopped := by
  induction w generalizing s deeds with
  | done a =>
    have hnil : deeds = [] := by simpa using hpast
    rw [hnil]
    rfl
  | ask q next ih =>
    obtain ⟨rest, hrest, -⟩ := r.exists_way (next (r.reply s q).2) (r.reply s q).1
    let d : Deed := ⟨q, (r.answer s q).2, s.context, (r.answer s q).1.isStopped⟩
    have happend : deeds.reverse ++ s.past = (d :: rest).reverse ++ s.past := by
      rw [List.reverse_cons, List.append_assoc]
      exact hpast.symm.trans hrest
    have hdeeds : deeds = d :: rest :=
      List.reverse_injective (List.append_cancel_right happend)
    rw [hdeeds]
    exact ih (r.reply s q).2 (r.reply s q).1 hrest

/-- The cues among the deeds of workers, each with the worker that has given it. -/
def cuesBy : Bool → List (Nat × Deed) → List (Nat × Cue)
  | _, [] => []
  | b, (i, d) :: rest =>
    (d.request.cue? b d.reply).toList.map (fun cue => (i, cue)) ++ cuesBy d.isStopped rest

theorem map_snd_cuesBy (b : Bool) (deeds : List (Nat × Deed)) :
    (cuesBy b deeds).map (·.2) = cuesOf b (deeds.map (·.2)) := by
  induction deeds generalizing b with
  | nil => rfl
  | cons d rest ih =>
    rw [cuesBy, List.map_append, ih, List.map_map, List.map_cons, cuesOf]
    exact congrArg (· ++ _) (List.map_id _)

theorem cuesBy_append (b : Bool) (first second : List (Nat × Deed)) :
    cuesBy b (first ++ second) =
      cuesBy b first ++ cuesBy (stoppedAfter b (first.map (·.2))) second := by
  induction first generalizing b with
  | nil => rfl
  | cons d rest ih =>
    rw [List.cons_append, cuesBy, cuesBy, ih, List.append_assoc]
    rfl

theorem fst_lt_of_mem_cuesBy {b : Bool} {deeds : List (Nat × Deed)} {n : Nat}
    (h : ∀ d ∈ deeds, d.1 < n) : ∀ x ∈ cuesBy b deeds, x.1 < n := by
  induction deeds generalizing b with
  | nil => simp [cuesBy]
  | cons d rest ih =>
    rw [List.forall_mem_cons] at h
    intro x hx
    rcases List.mem_append.1 hx with hx | hx
    · obtain ⟨cue, -, rfl⟩ := List.mem_map.1 hx
      exact h.1
    · exact ih h.2 x hx

namespace Crew

variable {r : Runner W} {context : Context} {c : Crew W}

def isStopped (c : Crew W) : Bool := c.cancelled || c.stopped

/-- The crew after the worker with the index had a request answered. -/
def answered (r : Runner W) (c : Crew W) (i : Nat) (found : Context) (q : Request)
    (next : q.Reply → Work FeatureResult) : Crew W :=
  let t := (r.answer (c.stage found []) q).1
  let reply := (r.answer (c.stage found []) q).2
  ⟨t.world, t.cancelled, t.stopped, c.workers.set i (.busy t.context (next reply)),
    (i, ⟨q, reply, found, t.isStopped⟩) :: c.past⟩

/-- What a worker may do when it is its turn. -/
theorem act_cases (r : Runner W) (context : Context) (c : Crew W) (i : Nat) :
    (∃ p, c.workers[i]? = some (.waiting p) ∧ c.mayStart r.options.jobs i = true ∧
      c.act r context i = { c with
        workers := c.workers.set i (.busy context.fork (r.options.runFeature p)) }) ∨
    (∃ found q next, c.workers[i]? = some (.busy found (.ask q next)) ∧
      c.act r context i = c.answered r i found q next) ∨
    (∃ found result, c.workers[i]? = some (.busy found (.done result)) ∧
      c.act r context i = { c with workers := c.workers.set i (.finished result) }) ∨
    c.act r context i = c := by
  unfold act
  split
  · rename_i p hp
    split
    · rename_i hmay
      exact .inl ⟨p, hp, hmay, rfl⟩
    · exact .inr (.inr (.inr rfl))
  · rename_i found q next hbusy
    exact .inr (.inl ⟨found, q, next, hbusy, rfl⟩)
  · rename_i found result hbusy
    exact .inr (.inr (.inl ⟨found, result, hbusy, rfl⟩))
  · exact .inr (.inr (.inr rfl))

theorem follow_preserves {P : Crew W → Prop} (hstep : ∀ c i, P c → P (c.act r context i))
    (h : P c) (schedule : List Nat) : P (follow r context schedule c) := by
  induction schedule generalizing c with
  | nil => exact h
  | cons i rest ih => exact ih (hstep c i h)

theorem workers_eq_of_results? {fs : List FeatureResult} (h : c.results? = some fs) :
    c.workers = fs.map .finished := by
  unfold results? at h
  generalize c.workers = ws at h
  induction ws generalizing fs with
  | nil =>
    cases h
    rfl
  | cons w rest ih =>
    rw [List.mapM_cons] at h
    cases w with
    | waiting p => cases h
    | busy found w => cases h
    | finished result =>
      obtain ⟨head, hhead, hrest⟩ := Option.bind_eq_some_iff.1 h
      cases hhead
      obtain ⟨fs', htail, hfs⟩ := Option.bind_eq_some_iff.1 hrest
      cases hfs
      rw [ih htail]
      rfl

/-- The cues that the workers have given since the crew took over from a stage; `b` tells whether
the run was to stop then. -/
def cues (b : Bool) (c : Crew W) : List (Nat × Cue) := cuesBy b c.past.reverse

def cuesAt (b : Bool) (c : Crew W) (i : Nat) : List Cue :=
  (group Prod.fst (c.cues b) i).map (·.2)

theorem perm_cuesAt {b : Bool} {n : Nat} (h : ∀ d ∈ c.past, d.1 < n) :
    ((List.range n).flatMap (c.cuesAt b)).Perm (cuesOf b (c.past.reverse.map (·.2))) := by
  have hlt : ∀ x ∈ c.cues b, x.1 ∈ List.range n := fun x hx => List.mem_range.2
    (fst_lt_of_mem_cuesBy (fun d hd => h d (List.mem_reverse.1 hd)) x hx)
  have hperm := (perm_flatMap_group List.nodup_range hlt).map (·.2)
  rw [List.map_flatMap] at hperm
  rwa [← map_snd_cuesBy]

/-- A cue comes last among those of the worker that gives it. -/
theorem cuesAt_answered {b : Bool} (hlast : stoppedAfter b (c.past.reverse.map (·.2)) = c.isStopped)
    (i : Nat) (found : Context) (q : Request) (next : q.Reply → Work FeatureResult) (j : Nat) :
    (c.answered r i found q next).cuesAt b j = c.cuesAt b j ++
      if i = j then (q.cue? c.isStopped (r.answer (c.stage found []) q).2).toList else [] := by
  rw [cuesAt, cuesAt, cues, cues, answered, List.reverse_cons, cuesBy_append, hlast,
    group_append, List.map_append]
  refine congrArg (_ ++ ·) ?_
  rw [cuesBy, cuesBy, List.append_nil]
  generalize q.cue? c.isStopped (r.answer (c.stage found []) q).2 = cue
  by_cases hij : i = j
  · cases cue <;> simp [group, hij]
  · cases cue <;> simp [group, hij]

def unfinished (c : Crew W) : Nat := c.workers.countP (·.result?.isNone)

theorem exists_results (h : c.unfinished = 0) : ∃ fs, c.results? = some fs := by
  unfold unfinished at h
  unfold results?
  generalize c.workers = ws at h
  rw [List.countP_eq_zero] at h
  induction ws with
  | nil => exact ⟨[], rfl⟩
  | cons w rest ih =>
    rw [List.forall_mem_cons] at h
    obtain ⟨fs, hfs⟩ := ih h.2
    cases w with
    | finished f => exact ⟨f :: fs, by simp [Worker.result?, hfs]⟩
    | waiting p => exact absurd rfl h.1
    | busy found w => exact absurd rfl h.1

theorem unfinished_set {i : Nat} {w : Worker} (hw : c.workers[i]? = some w)
    (hnone : w.result? = none) (w' : Worker) :
    ({ c with workers := c.workers.set i w' } : Crew W).unfinished =
      c.unfinished - 1 + if w'.result?.isNone then 1 else 0 := by
  obtain ⟨hi, rfl⟩ := List.getElem?_eq_some_iff.1 hw
  unfold unfinished
  rw [List.countP_set hi, hnone]
  rfl

theorem unfinished_pos {i : Nat} {w : Worker} (hw : c.workers[i]? = some w)
    (hnone : w.result? = none) : 0 < c.unfinished :=
  List.countP_pos_iff.2 ⟨w, List.mem_of_getElem? hw, by rw [hnone]; rfl⟩

/-- A worker that is busy can be followed until it has finished its feature. -/
theorem exists_fewer_busy (r : Runner W) (context : Context) {i : Nat}
    {found : Context} {w : Work FeatureResult} (h : c.workers[i]? = some (.busy found w)) :
    ∃ schedule, (follow r context schedule c).unfinished < c.unfinished := by
  obtain ⟨schedule, hworkers, -⟩ := exists_follow_busy r context w c i found [] h
  refine ⟨schedule, ?_⟩
  have hpos := unfinished_pos h rfl
  have hset := unfinished_set h rfl (.finished (r.perform w (c.stage found [])).2)
  rw [unfinished, hworkers]
  exact Nat.lt_of_le_of_lt (Nat.le_of_eq hset) (Nat.sub_lt hpos Nat.one_pos)

/-- If no worker is busy, the first that is waiting may take its feature up. -/
theorem exists_mayStart (jobs : Nat) (hbusy : ∀ w ∈ c.workers, w.isBusy = false)
    (hwaiting : ∃ w ∈ c.workers, w.isWaiting = true) :
    ∃ i p, c.workers[i]? = some (.waiting p) ∧ c.mayStart jobs i = true := by
  let i := c.workers.findIdx Worker.isWaiting
  have hi : i < c.workers.length := List.findIdx_lt_length.2 hwaiting
  have hat : c.workers[i].isWaiting = true := List.findIdx_getElem
  obtain ⟨p, hp⟩ : ∃ p, c.workers[i] = .waiting p := by
    cases hw : c.workers[i] with
    | waiting p => exact ⟨p, rfl⟩
    | busy found w => simp [hw, Worker.isWaiting] at hat
    | finished f => simp [hw, Worker.isWaiting] at hat
  refine ⟨i, p, List.getElem?_eq_some_iff.2 ⟨hi, hp⟩, ?_⟩
  have hnone : (c.workers.take i).any Worker.isWaiting = false := by
    rw [List.any_eq_false]
    intro w hw
    obtain ⟨j, hj, rfl⟩ := List.mem_take_iff_getElem.1 hw
    have hji : j < i := Nat.lt_of_lt_of_le hj (Nat.min_le_left i _)
    exact Bool.eq_false_iff.1 (List.not_of_lt_findIdx hji)
  have hzero : c.workers.countP Worker.isBusy = 0 :=
    List.countP_eq_zero.2 fun w hw => by rw [hbusy w hw]; exact Bool.false_ne_true
  rw [mayStart, hnone, hzero, Bool.and_eq_true, decide_eq_true_eq]
  exact ⟨rfl, Nat.lt_of_lt_of_le Nat.one_pos (Nat.le_max_right jobs 1)⟩

/-- As long as a feature is unfinished, the crew can be followed until one more is finished. -/
theorem exists_fewer (r : Runner W) (context : Context) (h : c.unfinished ≠ 0) :
    ∃ schedule, (follow r context schedule c).unfinished < c.unfinished := by
  by_cases hbusy : ∃ w ∈ c.workers, w.isBusy = true
  · obtain ⟨w, hw, hb⟩ := hbusy
    obtain ⟨i, hi⟩ := List.getElem?_of_mem hw
    cases w with
    | busy found w => exact exists_fewer_busy r context hi
    | waiting p => cases hb
    | finished f => cases hb
  · simp only [not_exists, not_and, Bool.not_eq_true] at hbusy
    obtain ⟨w, hw, hnone⟩ := List.countP_pos_iff.1 (Nat.pos_of_ne_zero h)
    have hwaiting : w.isWaiting = true := by
      cases w with
      | waiting p => rfl
      | busy found w => cases hbusy _ hw
      | finished f => cases hnone
    obtain ⟨i, p, hi, hmay⟩ := exists_mayStart r.options.jobs hbusy ⟨w, hw, hwaiting⟩
    have hlt := (List.getElem?_eq_some_iff.1 hi).1
    have hact : c.act r context i = { c with
        workers := c.workers.set i (.busy context.fork (r.options.runFeature p)) } := by
      simp [act, hi, hmay]
    have hsame : (c.act r context i).unfinished = c.unfinished := by
      rw [hact, unfinished_set hi rfl]
      exact Nat.sub_add_cancel (unfinished_pos hi rfl)
    have htaken : (c.act r context i).workers[i]? =
        some (.busy context.fork (r.options.runFeature p)) := by
      rw [hact]
      exact List.getElem?_set_self hlt
    obtain ⟨schedule, hfewer⟩ := exists_fewer_busy r context htaken
    exact ⟨i :: schedule, hsame ▸ hfewer⟩

/-- Every crew can be followed until all features are finished. -/
theorem exists_finish (r : Runner W) (context : Context) (c : Crew W) :
    ∃ schedule fs, (follow r context schedule c).results? = some fs := by
  induction hn : c.unfinished using Nat.strongRecOn generalizing c with
  | ind n ih =>
    by_cases h : c.unfinished = 0
    · obtain ⟨fs, hfs⟩ := exists_results h
      exact ⟨[], fs, hfs⟩
    · obtain ⟨first, hfewer⟩ := exists_fewer r context h
      obtain ⟨rest, fs, hfs⟩ := ih _ (hn ▸ hfewer) (follow r context first c) rfl
      refine ⟨first ++ rest, fs, ?_⟩
      rw [follow_append]
      exact hfs

end Crew

/-- A run by a schedule that ends is closed over skipped features if its opening was fatal, and over
those that the crew has finished if not. -/
theorem Runner.runBy_cases {r : Runner W} {suite : Suite} {world : W} {cancelled : Bool}
    {schedule : List Nat} {e : Ended W} {s : Stage W} {opening : Opening}
    (hvalid : suite.violation? = none)
    (hopen : r.perform r.options.openRun (.start world cancelled) = (s, opening))
    (h : r.runBy? suite world cancelled schedule = some e) :
    let ps := (r.options.plan suite).features
    let crew := Crew.follow r s.context schedule (.start s ps)
    (opening.fatal.isSome = true ∧ e = r.finish opening s (ps.map (·.skipped))) ∨
      (opening.fatal.isSome = false ∧ ∃ fs, crew.results? = some fs ∧
        e = r.finish opening (crew.stage s.context s.past) fs) := by
  rw [runBy?, hvalid] at h
  dsimp only at h
  rw [hopen] at h
  dsimp only at h
  split at h
  · rename_i hfatal
    exact .inl ⟨hfatal, (Option.some.inj h).symm⟩
  · rename_i hfatal
    obtain ⟨fs, hfs, rfl⟩ := Option.map_eq_some_iff.1 h
    exact .inr ⟨Bool.eq_false_iff.2 hfatal, fs, hfs, rfl⟩

end Rehearsal
