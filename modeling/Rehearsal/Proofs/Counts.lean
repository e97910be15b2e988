import Mathlib.Algebra.Order.Ring.Nat
import Mathlib.Data.List.Dedup
import Mathlib.Data.Prod.Lex
import Mathlib.Data.String.Basic
import Rehearsal.Proofs.Rerun
import Rehearsal.Result.Counts

/-!
# Counts and the tree of results

The counts of a run say of each status how many nodes of the tree have it (`Summary.Partitions`).
Every scenario lists the steps of the backgrounds around it, but they are counted in one scenario
of each feature only, its `bearer?`: the first one that was started and has any.

The scenarios to run again are a set, so there are as many of them as failed scenarios unless two of
these have the same identity (`ScenarioId.length_sorted_eq_iff`).
-/

namespace Rehearsal

/-! ### Identities -/

namespace ScenarioId

/-- The identity as a member of a linear order. -/
def rank (id : ScenarioId) : String ×ₗ ℕ ×ₗ String := toLex (id.path, toLex (id.line, id.name))

theorem rank_injective : Function.Injective rank := by
  rintro ⟨path, line, name⟩ ⟨path', line', name'⟩ h
  simpa [rank] using h

theorem isBefore_iff (a b : ScenarioId) : a.isBefore b = true ↔ a.rank < b.rank := by
  simp only [rank, Prod.Lex.toLex_lt_toLex, isBefore]
  split
  · rename_i hpath
    split
    · rename_i hline
      simp [hpath, hline]
    · rename_i hline
      simp [hpath, hline]
  · rename_i hpath
    simp [hpath]

theorem pairwise_insert (id : ScenarioId) {ids : List ScenarioId}
    (h : ids.Pairwise fun a b => a.rank < b.rank) :
    (insert id ids).Pairwise fun a b => a.rank < b.rank := by
  induction ids with
  | nil => simp [insert]
  | cons a rest ih =>
    obtain ⟨hfirst, hrest⟩ := List.pairwise_cons.1 h
    unfold insert
    split
    · rename_i hbefore
      have hlt : id.rank < a.rank := (isBefore_iff id a).1 hbefore
      refine List.pairwise_cons.2 ⟨fun b hb => ?_, h⟩
      rcases List.mem_cons.1 hb with rfl | hb
      · exact hlt
      · exact hlt.trans (hfirst b hb)
    · rename_i hbefore
      split
      · exact h
      · rename_i hne
        have hlt : a.rank < id.rank := by
          rcases lt_trichotomy id.rank a.rank with hlt | heq | hgt
          · exact absurd ((isBefore_iff id a).2 hlt) hbefore
          · exact absurd (rank_injective heq) hne
          · exact hgt
        refine List.pairwise_cons.2 ⟨fun b hb => ?_, ih hrest⟩
        rcases (mem_insert id b rest).1 hb with rfl | hb
        · exact hlt
        · exact hfirst b hb

theorem pairwise_sorted (ids : List ScenarioId) :
    (sorted ids).Pairwise fun a b => a.rank < b.rank := by
  induction ids with
  | nil => exact .nil
  | cons id rest ih => exact pairwise_insert id ih

/-- Sorting drops repetitions and nothing else. -/
theorem perm_dedup_sorted (ids : List ScenarioId) : (sorted ids).Perm ids.dedup := by
  have hnodup : (sorted ids).Nodup :=
    (pairwise_sorted ids).imp fun hlt heq => absurd (heq ▸ hlt) (lt_irrefl _)
  refine (List.perm_ext_iff_of_nodup hnodup ids.nodup_dedup).2 fun id => ?_
  rw [mem_sorted, List.mem_dedup]

theorem length_sorted_le (ids : List ScenarioId) : (sorted ids).length ≤ ids.length := by
  rw [(perm_dedup_sorted ids).length_eq]
  exact ids.dedup_sublist.length_le

theorem length_sorted_eq_iff (ids : List ScenarioId) :
    (sorted ids).length = ids.length ↔ ids.Nodup := by
  rw [(perm_dedup_sorted ids).length_eq]
  constructor
  · intro h
    exact List.dedup_eq_self.1 (ids.dedup_sublist.eq_of_length h)
  · intro h
    rw [h.dedup]

end ScenarioId

/-! ### Steps -/

namespace ScenarioResult

def ownCount (s : ScenarioResult) (status : Status) : ℕ :=
  s.steps.countP fun step => step.background = false ∧ step.status = status

/-- The number of steps of backgrounds around the scenario that have the status. -/
def backgroundCount (s : ScenarioResult) (status : Status) : ℕ :=
  s.steps.countP fun step => step.background = true ∧ step.status = status

theorem count_own (s : ScenarioResult) (status : Status) :
    ((s.steps.filter fun step => !step.background).map (·.status)).count status =
      s.ownCount status := by
  rw [List.count, List.countP_map, List.countP_filter, ownCount]
  refine List.countP_congr fun step _ => ?_
  simp [and_comm]

theorem count_all (s : ScenarioResult) (status : Status) :
    (s.steps.map (·.status)).count status = s.ownCount status + s.backgroundCount status := by
  rw [List.count, List.countP_map, ownCount, backgroundCount]
  induction s.steps with
  | nil => rfl
  | cons step rest ih =>
    simp only [List.countP_cons, ih]
    cases step.background <;> simp <;> omega

end ScenarioResult

namespace FeatureResult

/-- The scenario in which the steps of the backgrounds are counted: the first one, in the order of
the document and with those of the rules, that was started and has any. -/
def bearer? (f : FeatureResult) : Option ScenarioResult :=
  f.scenarios.find? fun s => 0 < s.attempts ∧ ∃ step ∈ s.steps, step.background = true

/-- The number of steps of backgrounds with the status that are counted for the feature. -/
def backgroundCount (f : FeatureResult) (status : Status) : ℕ :=
  (f.bearer?.map (·.backgroundCount status)).getD 0

theorem bearer?_eq_find? (f : FeatureResult) :
    f.bearer? = f.scenarios.find? ScenarioResult.ranBackground := by
  refine congrArg (List.find? · f.scenarios) (funext fun s => ?_)
  rw [Bool.eq_iff_iff]
  simp [ScenarioResult.ranBackground]

end FeatureResult

/-- Once the background was counted, or until the scenario that has it counted, the steps of the
scenarios themselves are counted. -/
theorem count_countedSteps (done : Bool) (scenarios : List ScenarioResult) (status : Status) :
    (countedSteps done scenarios).count status =
      (scenarios.map (·.ownCount status)).sum +
        if done then 0
        else ((scenarios.find? (·.ranBackground)).map (·.backgroundCount status)).getD 0 := by
  induction scenarios generalizing done with
  | nil => simp
  | cons s rest ih =>
    have hown := s.count_own status
    have hall := s.count_all status
    rw [countedSteps, List.count_append, ih, List.map_cons, List.sum_cons]
    cases done with
    | true => simp [hown]
    | false =>
      cases hran : s.ranBackground with
      | true =>
        -- the background is counted here, and not again in what follows
        simp [hran, hall]
        omega
      | false =>
        simp [hran, hown]
        omega

/-! ### The tree -/

namespace StatusCounts

theorem total_record (c : StatusCounts) (s : Status) : (c.record s).total = c.total + 1 := by
  cases s <;> simp only [record, total] <;> omega

theorem total_ofList (ss : List Status) : (ofList ss).total = ss.length := by
  have hfold : ∀ c : StatusCounts, (ss.foldl record c).total = c.total + ss.length := by
    induction ss with
    | nil => simp
    | cons s rest ih =>
      intro c
      rw [List.foldl_cons, ih, total_record, List.length_cons]
      omega
  rw [ofList, hfold]
  simp [total, zero]

theorem get_ofList_map {α : Type} (xs : List α) (f : α → Status) (s : Status) :
    (ofList (xs.map f)).get s = xs.countP fun x => f x = s := by
  rw [get_ofList, List.count, List.countP_map]
  exact List.countP_congr fun x _ => by simp

end StatusCounts

/-- The counts say of each status how many nodes of the tree have it. A background is counted once
for a feature. -/
structure Summary.Partitions (m : Summary) (r : RunResult) : Prop where
  features : ∀ s, m.features.get s = r.features.countP fun f => f.status = s
  rules : ∀ s, m.rules.get s = (r.features.flatMap (·.rules)).countP fun rule => rule.status = s
  scenarios : ∀ s, m.scenarios.get s = r.scenarios.countP fun sc => sc.status = s
  steps : ∀ s, m.steps.get s =
    (r.scenarios.map (·.ownCount s)).sum + (r.features.map (·.backgroundCount s)).sum
  totals : m.features.total = r.features.length ∧
    m.rules.total = (r.features.flatMap (·.rules)).length ∧ m.scenarios.total = r.scenarios.length

namespace RunResult

theorem get_steps_summary (r : RunResult) (s : Status) :
    r.summary.steps.get s =
      (r.scenarios.map (·.ownCount s)).sum + (r.features.map (·.backgroundCount s)).sum := by
  have hfeature : ∀ f : FeatureResult, (countedSteps false f.scenarios).count s =
      (f.scenarios.map (·.ownCount s)).sum + f.backgroundCount s := by
    intro f
    rw [count_countedSteps, FeatureResult.backgroundCount, f.bearer?_eq_find?]
    rfl
  rw [summary, StatusCounts.get_ofList, scenarios]
  induction r.features with
  | nil => rfl
  | cons f rest ih =>
    rw [List.flatMap_cons, List.count_append, ih, hfeature, scenariosOf_cons, List.map_append,
      List.sum_append, List.map_cons, List.sum_cons]
    omega

theorem partitions_summary (r : RunResult) : r.summary.Partitions r where
  features s := StatusCounts.get_ofList_map _ _ s
  rules s := StatusCounts.get_ofList_map _ _ s
  scenarios s := StatusCounts.get_ofList_map _ _ s
  steps s := r.get_steps_summary s
  totals := by simp [summary, StatusCounts.total_ofList]

/-- The scenarios that failed are those counted as failed or as erroneous. -/
theorem length_failing (r : RunResult) :
    r.failing.length = r.summary.scenarios.get .failed + r.summary.scenarios.get .error := by
  rw [r.partitions_summary.scenarios, r.partitions_summary.scenarios, failing,
    ← List.countP_eq_length_filter]
  induction r.scenarios with
  | nil => rfl
  | cons s rest ih =>
    simp only [List.countP_cons, ih]
    cases s.status <;> simp [Status.isFailure] <;> omega

/-- The counts of a result are those of its tree. Where the scenarios to run again are the ones that
failed, as in the result of every run, there are at most as many as were counted as failed or
erroneous, and as many exactly if the identities of these tell them apart. -/
theorem summary_partitions (r : RunResult) :
    r.summary.Partitions r ∧
    (r.rerun = failedIds r.features →
      r.rerun.length ≤ r.summary.scenarios.get .failed + r.summary.scenarios.get .error ∧
      (r.rerun.length = r.summary.scenarios.get .failed + r.summary.scenarios.get .error ↔
        (r.failing.map (·.id)).Nodup)) ∧
    ∀ {W : Type} (runner : Runner W) (suite : Suite) (world : W) (cancelled : Bool) (e : Ended W),
      runner.Ends suite world cancelled e → e.report? = some r →
        r.rerun = failedIds r.features := by
  refine ⟨r.partitions_summary, fun hrerun => ?_, ?_⟩
  · have hids : r.rerun = ScenarioId.sorted (r.failing.map (·.id)) := hrerun
    rw [hids, ← r.length_failing, ← List.length_map (f := ScenarioResult.id)]
    exact ⟨ScenarioId.length_sorted_le _, ScenarioId.length_sorted_eq_iff _⟩
  · intro W runner suite world cancelled e hends hreport
    obtain ⟨k, a, ha, hsame, -⟩ := hends.exists_account (hends.violation?_eq_none hreport)
    obtain rfl := Option.some.inj (hreport.symm.trans hsame)
    exact ha.rerun_eq

/-- Two failed scenarios with the same identity and a background. -/
theorem summary_partitions_twins :
    let runner := Runner.ofHooks (Hooks.none.register .afterScenario fun _ =>
      .done (.error "boom" false))
    let twin : FeatureChild := .definition (.scenario (.named "scenario"))
    let suite : Suite := ⟨[{ Feature.named "feature" with
      background := some { Background.blank with steps := [.ofClass .context "a step"] }
      children := [twin, twin] }]⟩
    ∃ result, (runner.run suite () false).report? = some result ∧
      result.summary.Partitions result ∧ result.summary.steps.get .undefined = 1 ∧
      ¬ (result.failing.map (·.id)).Nodup ∧
      result.rerun.length < result.summary.scenarios.get .failed +
        result.summary.scenarios.get .error := by
  intro runner twin suite
  have hreport : (runner.run suite () false).report?.any (fun result =>
      decide (result.summary.steps.get .undefined = 1) &&
      decide (¬ (result.failing.map (·.id)).Nodup)) = true := by decide
  obtain ⟨result, hresult, hholds⟩ := (Option.any_eq_true _ _).1 hreport
  rw [Bool.and_eq_true, decide_eq_true_eq, decide_eq_true_eq] at hholds
  obtain ⟨hpartitions, hrerun, hruns⟩ := result.summary_partitions
  obtain ⟨hle, hiff⟩ := hrerun (hruns runner suite () false _ .inOrder hresult)
  exact ⟨result, hresult, hpartitions, hholds.1, hholds.2,
    lt_of_le_of_ne hle fun heq => hholds.2 (hiff.1 heq)⟩

end RunResult

end Rehearsal
