import Rehearsal.Proofs.Parallel.Safety

/-!
# Accounts of runs through moves

`Runner.Goes` holds of a run that has ended and of all that was asked in it, in the order of time:
a run in order, or one through moves, in which the workers take turns and the wish to stop may come
from outside at any moment. Every such run has a sound account with its result
(`Runner.Goes.exists_account`).

The account `Unfolds` the cues of the run: what is called around the run comes first and last, and
what lies between is what is called for the features, each in its order.
-/

namespace Rehearsal

/-- The cues are those of the account; those of different features may be mixed. -/
def RunAccount.Unfolds (a : RunAccount) (cues : List Cue) : Prop :=
  ∃ between, cues = .enter a.start :: a.passage.around between ∧
    between.Perm (a.features.flatMap (·.cues)) ∧ ∀ f ∈ a.features, f.cues.Sublist between

namespace RunAccount.Unfolds

variable {a : RunAccount} {cues : List Cue}

theorem refl (a : RunAccount) : a.Unfolds a.cues :=
  ⟨a.features.flatMap (·.cues), rfl, .refl _, fun _ hf =>
    List.sublist_flatten_of_mem (List.mem_map_of_mem hf)⟩

theorem perm (h : a.Unfolds cues) : a.cues.Perm cues := by
  obtain ⟨between, rfl, hperm, -⟩ := h
  exact ((hperm.symm.append_left _).append_right _).cons _

theorem feature (h : a.Unfolds cues) {f : FeatureAccount} (hf : f ∈ a.features) :
    f.cues.Sublist cues := by
  obtain ⟨between, rfl, -, hsub⟩ := h
  refine .cons _ ((hsub f hf).trans ?_)
  exact (List.sublist_append_right _ _).trans (List.sublist_append_left _ _)

theorem slots (h : a.Unfolds cues) : (a.passage.slots.map Cue.slot).Sublist cues := by
  obtain ⟨between, rfl, -, -⟩ := h
  rw [Passage.slots, List.map_append, Passage.around]
  exact .cons _ ((List.sublist_append_left _ _).append (.refl _))

end RunAccount.Unfolds

namespace Crew

variable {r : Runner W} {context : Context} {c : Crew W}

theorem isStopped_go (h : c.isStopped = true) (moves : List Move) :
    (go r context moves c).isStopped = true := by
  induction moves generalizing c with
  | nil => exact h
  | cons m rest ih =>
    cases m with
    | act i => exact ih (isStopped_act h i)
    | cancel => exact ih (c := { c with cancelled := true }) rfl

/-- If a turn has left the run to be stopped, it is so in the end. -/
theorem isStopped_of_mem_trail {moves : List Move} {x : Nat × Turn W}
    (hx : x ∈ c.trail r context moves) (hstop : (x.2.deed r).isStopped = true) :
    (go r context moves c).isStopped = true := by
  obtain ⟨before, after, rfl, hturn⟩ := exists_of_mem_trail hx
  obtain ⟨found, q, next, hi, heq⟩ := exists_of_turn? hturn
  rw [go_append, go_cons, move, act_of_busy hi]
  refine isStopped_go ?_ after
  rw [heq] at hstop
  exact hstop

end Crew

namespace Runner

variable {r : Runner W} {suite : Suite} {world : W} {cancelled : Bool}

/-- Whatever a runner does on a stage is a course of the work, with the cues of its trail. -/
theorem course_trail (r : Runner W) (w : Work α) (s : Stage W) :
    w.Course .alone s.isStopped ((r.trail w s).filterMap (·.cue? r)) (r.perform w s).2
      (r.perform w s).1.isStopped := by
  induction w generalizing s with
  | done a => exact .done a _
  | ask q next ih =>
    rw [trail, Turn.filterMap_cue?_cons]
    exact .ask rfl (r.admits_answer s q) (ih (r.reply s q).2 (r.reply s q).1)

/-- A run has ended, and these are the turns made in it, the earliest first. -/
inductive Goes (r : Runner W) (suite : Suite) (world : W) (cancelled : Bool) :
    List (Turn W) → Ended W → Prop
  | inOrder (hvalid : suite.violation? = none) :
      Goes r suite world cancelled
        (r.trail (r.options.runPlan (r.options.plan suite)) (.start world cancelled))
        (r.run suite world cancelled)
  | through {moves : List Move} {fs : List FeatureResult} (hvalid : suite.violation? = none)
      (hfs : r.featuresAfter? suite world cancelled moves = some fs) :
      Goes r suite world cancelled
        (r.trail r.options.openRun (.start world cancelled) ++
          (r.crewTrail suite world cancelled moves).map (·.2) ++
          r.trail (r.options.closeRun (r.opened world cancelled).2 fs)
            (r.stageAfter suite world cancelled moves))
        (r.finish (r.opened world cancelled).2 (r.stageAfter suite world cancelled moves) fs)

/-- The accounts of the features that workers have gone through, after an opening with the slots. -/
theorem exists_accounts_crew {moves : List Move} {fs : List FeatureResult}
    (hfs : r.featuresAfter? suite world cancelled moves = some fs) (stopped : Bool)
    (hstop : (r.stageAfter suite world cancelled moves).isStopped = true → stopped = true)
    {start : Bool} {before : List SlotCue}
    (hopening : Work.Opens ⟨r.options, .others, stopped⟩ cancelled start before
      (r.opened world cancelled).2 (r.opened world cancelled).1.isStopped) :
    ∃ as : List FeatureAccount,
      (∀ a ∈ as, a.Sound ⟨r.options, .others, stopped⟩ (before.all (·.isOk))) ∧
      as.map (·.planned) = (r.options.plan suite).features ∧ as.map (·.result) = fs ∧
      as.map (·.cues) = (List.range (r.options.plan suite).features.length).map fun i =>
        (r.trailAfter suite world cancelled moves i).filterMap (·.cue? r) := by
  by_cases hfatal : (r.opened world cancelled).2.fatal.isSome = true
  · obtain ⟨as, hsound, hplanned, hresults, hcues⟩ :=
      hopening.skipped hfatal (r.options.plan suite).features
    have hfs' : fs = (r.options.plan suite).features.map (·.skipped) := by
      rw [featuresAfter?, if_pos hfatal, Option.some.injEq] at hfs
      exact hfs.symm
    refine ⟨as, hsound, hplanned, hresults.trans hfs'.symm, ?_⟩
    have hlength : (r.options.plan suite).features.length = as.length := by
      rw [← hplanned, List.length_map]
    have hquiet : ∀ i, r.trailAfter suite world cancelled moves i = [] := by
      intro i
      rw [trailAfter, crewTrail, crew_of_fatal hfatal, Crew.trail_of_workers_nil rfl]
      rfl
    simp only [hquiet, hlength, List.filterMap_nil, List.map_const', List.length_range]
    exact List.eq_replicate_iff.2 ⟨List.length_map _, by simpa using hcues⟩
  · have hnone : before.findSome? (fun s => s.call.fatal?) = none := by
      rw [← hopening.fatal]
      simpa using hfatal
    refine FeatureAccount.exists_list _ _ _ (length_features hfs) fun i => ?_
    have hgo := hfs
    rw [featuresAfter?, if_neg hfatal, crewAfter, crew_of_not_fatal hfatal] at hgo
    obtain ⟨f, d, hf, hline⟩ := Crew.line_go hgo (List.getElem?_eq_getElem i.2)
    rw [← crew_of_not_fatal hfatal] at hline
    obtain ⟨last, hcourse, hlast⟩ := hline.course
    have hend : last = true → stopped = true := by
      intro hleft
      refine hstop ?_
      change (r.crewAfter suite world cancelled moves).isStopped = true
      rcases hlast hleft with hbegin | ⟨x, hx, hdeed⟩
      · refine Crew.isStopped_go ?_ moves
        rw [crew_of_not_fatal hfatal]
        exact hbegin
      · obtain ⟨y, hy, rfl⟩ := List.mem_map.1 hx
        exact Crew.isStopped_of_mem_trail (List.mem_of_mem_filter hy) hdeed
    obtain ⟨a, ha, hplanned, rfl, hcues⟩ :=
      Work.course_feature (t := ⟨r.options, .others, stopped⟩) hnone hopening.enters.stops hend
        hcourse
    exact ⟨a, ha, hplanned, hf, hcues⟩

/-- What the workers ask, worker by worker, is all that they ask. -/
theorem perm_trailAfter (moves : List Move) :
    ((List.range (r.options.plan suite).features.length).flatMap
      (r.trailAfter suite world cancelled moves)).Perm
        ((r.crewTrail suite world cancelled moves).map (·.2)) := by
  have hlt : ∀ x ∈ r.crewTrail suite world cancelled moves,
      x.1 ∈ List.range (r.options.plan suite).features.length :=
    fun _ hx => List.mem_range.2 (lt_of_mem_crewTrail hx)
  have hperm := (perm_flatMap_group List.nodup_range hlt).map (·.2)
  rwa [List.map_flatMap] at hperm

/-- Every run that has ended has a sound account with its result, which unfolds its cues. -/
theorem Goes.exists_account {xs : List (Turn W)} {e : Ended W}
    (h : r.Goes suite world cancelled xs e) :
    ∃ (k : Company) (a : RunAccount),
      a.Sound ⟨r.options, k, e.stage.isStopped⟩ cancelled (r.options.plan suite) ∧
      e.result = a.ending.mapError .fatal ∧ a.Unfolds (xs.filterMap (·.cue? r)) := by
  have hstart : (Stage.start world cancelled).isStopped = cancelled := Bool.or_false cancelled
  cases h with
  | inOrder hvalid =>
    have hcourse := r.course_trail (r.options.runPlan (r.options.plan suite))
      (.start world cancelled)
    have hrun : r.run suite world cancelled =
        ⟨(r.perform (r.options.runPlan (r.options.plan suite)) (.start world cancelled)).1,
          (r.perform (r.options.runPlan (r.options.plan suite))
            (.start world cancelled)).2.mapError .fatal⟩ := by
      rw [run, hvalid]
    rw [hstart] at hcourse
    rw [hrun]
    obtain ⟨a, ha, hending, hcues⟩ :=
      Work.course_runPlan (t := ⟨r.options, .alone, _⟩) rfl hcourse
    exact ⟨.alone, a, ha, by rw [hending], hcues ▸ .refl a⟩
  | @through moves fs hvalid hfs =>
    let s := r.stageAfter suite world cancelled moves
    have hopen := r.course_trail r.options.openRun (.start world cancelled)
    have hclose := r.course_trail (r.options.closeRun (r.opened world cancelled).2 fs) s
    let e := r.finish (r.opened world cancelled).2 s fs
    rw [hstart] at hopen
    let t : Terms := ⟨r.options, .others, e.stage.isStopped⟩
    obtain ⟨start, before, hcues, hopening⟩ :=
      Work.course_openRun (t := t) (hopen.others .others)
    obtain ⟨as, hsound, hplanned, rfl, heach⟩ :=
      exists_accounts_crew hfs e.stage.isStopped (fun hs => r.isStopped_perform _ s hs) hopening
    obtain ⟨a, ha, hending, rfl, hbegin, rfl, hend⟩ :=
      Work.course_closeRun hopening hplanned hsound rfl (hclose.others .others)
    refine ⟨.others, a, ha, ?_,
      ((r.crewTrail suite world cancelled moves).map (·.2)).filterMap (·.cue? r), ?_, ?_,
      fun f hf => ?_⟩
    · rw [hending]
      rfl
    · rw [List.filterMap_append, List.filterMap_append, hcues, ← hend, hbegin, Passage.around]
      rfl
    · rw [List.flatMap, heach, ← List.flatMap, ← List.filterMap_flatMap]
      exact ((perm_trailAfter moves).filterMap _).symm
    · obtain ⟨i, -, hi⟩ := List.mem_map.1 (heach ▸ List.mem_map_of_mem hf)
      rw [← hi]
      exact (List.filter_sublist.map _).filterMap _

end Runner

end Rehearsal
