import Rehearsal.Proofs.Account

/-!
# Accounts of scenarios

Every course of the work on a step, an attempt or a scenario is told by a sound account with
the same cues and the same result. There is one statement for each of the functions that
make up a scenario, and each is proved from those of the functions that it calls.
-/

namespace Rehearsal

namespace Work

variable {t : Terms} {b c : Bool} {cues : List Cue}

/-- The call of an implementation is one cue, with the verdict that it means. -/
theorem course_callStep {k : Company} {m : StepMatch} {step : Step} {v : StepVerdict}
    (h : (RunOptions.callStep m step).Course k b cues v c) :
    ∃ cue : CallCue, cues = [.call cue] ∧ cue.found = m ∧ cue.step = step ∧ v = cue.verdict := by
  obtain ⟨first, reply, b', second, rfl, h₁, h₂⟩ := course_seq h
  obtain ⟨b₀, -, -, rfl⟩ := course_request.1 h₁
  suffices hrest : second = [] ∧ v = CallCue.verdict ⟨m, step, reply, b₀⟩ by
    obtain ⟨rfl, hverdict⟩ := hrest
    exact ⟨⟨m, step, reply, b₀⟩, rfl, rfl, rfl, hverdict⟩
  unfold CallCue.verdict
  cases hfailure : reply.outcome.failure? with
  | none =>
    simp only [hfailure] at h₂ ⊢
    obtain ⟨rfl, rfl, rfl⟩ := course_pure h₂
    exact ⟨rfl, rfl⟩
  | some f =>
    simp only [hfailure] at h₂ ⊢
    by_cases hstop : f.stop = true
    · rw [if_pos hstop] at h₂ ⊢
      obtain ⟨first, _, b'', second, rfl, h₃, h₄⟩ := course_seq h₂
      obtain ⟨rfl, rfl⟩ := course_stop h₃
      obtain ⟨rfl, rfl, rfl⟩ := course_pure h₄
      exact ⟨rfl, rfl⟩
    · rw [if_neg hstop] at h₂ ⊢
      obtain ⟨rfl, rfl, rfl⟩ := course_pure h₂
      exact ⟨rfl, rfl⟩

/-- The single call of a slot outside dry runs. -/
theorem course_slot_real {o : RunOptions} {k : Company} (hdry : o.dryRun = false)
    {point : HookPoint} {scope : HookScope} {status : Option Status} {call : SlotCall}
    (h : (o.slot point scope status).Course k b cues call c) :
    ∃ s : SlotCue, cues = [.slot s] ∧ s.event = ⟨point, scope, status⟩ ∧ call = s.call ∧
      k.Lets b s.stopped := by
  rcases course_slot h with ⟨hdry', -⟩ | ⟨-, s, hcues, hevent, hcall, hlet, -⟩
  · rw [hdry] at hdry'
    cases hdry'
  · exact ⟨s, hcues, hevent, hcall, hlet⟩

theorem course_runMatched {m : StepMatch} {step : Step} {background stopped : Bool}
    {r : StepResult} (hdry : t.options.dryRun = false) (calm : t.company.Lets false stopped)
    (h : (t.options.runMatched m step background).Course t.company stopped cues r c) :
    ∃ a : StepAccount, a.Started t ∧ a.listed = (step, background) ∧ a.result = r ∧
      a.cues = .find ⟨step, .ok (some m), stopped⟩ :: cues := by
  obtain ⟨first, before, b₁, second, rfl, h₁, h₂⟩ := course_seq h
  obtain ⟨before, rfl, hopens, rfl, hfirst⟩ := course_slot_real hdry h₁
  obtain ⟨third, verdict, b₂, fourth, rfl, h₃, h₄⟩ := course_seq h₂
  obtain ⟨fifth, after, b₃, sixth, rfl, h₅, h₆⟩ := course_seq h₄
  obtain ⟨after, rfl, hcloses, rfl, -⟩ := course_slot_real hdry h₅
  obtain ⟨rfl, rfl, rfl⟩ := course_pure h₆
  -- what is called between the two slots, and what it means
  have hcall : ∃ call : Option CallCue, third = call.toList.map .call ∧
      call.isSome = before.isOk ∧ (∀ c ∈ call, c.found = m ∧ c.step = step) ∧
      verdict = before.verdict call := by
    change Course t.company (if before.isOk then _ else _) _ _ _ _ at h₃
    split at h₃
    · rename_i hok
      obtain ⟨cue, rfl, hfound, hstep, rfl⟩ := course_callStep h₃
      exact ⟨some cue, rfl, hok.symm, by simpa using ⟨hfound, hstep⟩, rfl⟩
    · rename_i hok
      obtain ⟨rfl, rfl, rfl⟩ := course_pure h₃
      refine ⟨none, rfl, by simpa using hok, by simp, ?_⟩
      simp [SlotCue.verdict, HookReport.empty]
  obtain ⟨call, rfl, hsome, hown, rfl⟩ := hcall
  refine ⟨_, .matched hdry calm hfirst hopens hsome hown hcloses, rfl, rfl, ?_⟩
  simp [StepAccount.cues, Passage.around]

/-- A step that is started when the run is not to stop. -/
theorem course_runStep {step : Step} {background : Bool} {r : StepResult}
    (h : (t.options.runStep step background).Course t.company false cues r c) :
    ∃ a : StepAccount, a.Started t ∧ a.listed = (step, background) ∧ a.result = r ∧
      a.cues = cues := by
  obtain ⟨first, reply, b', second, rfl, h₁, h₂⟩ := course_seq h
  obtain ⟨hcalm, rfl⟩ := course_find h₁
  split at h₂
  · obtain ⟨rfl, rfl, rfl⟩ := course_pure h₂
    exact ⟨_, .faulty hcalm, rfl, rfl, rfl⟩
  · obtain ⟨rfl, rfl, rfl⟩ := course_pure h₂
    exact ⟨_, .unknown hcalm, rfl, rfl, rfl⟩
  · split at h₂
    · rename_i hdry
      obtain ⟨rfl, rfl, rfl⟩ := course_pure h₂
      exact ⟨_, .dry hdry hcalm, rfl, rfl, rfl⟩
    · rename_i hdry
      exact course_runMatched (Bool.not_eq_true _ ▸ hdry) hcalm h₂

theorem map_skipped (ss : List (Step × Bool)) :
    (ss.map fun s => StepResult.skipped s.1 s.2) = (ss.map StepAccount.idle).map (·.result) := by
  rw [List.map_map]
  rfl

theorem cues_idle_steps (ss : List (Step × Bool)) :
    (ss.map StepAccount.idle).flatMap (·.cues) = [] := by
  induction ss with
  | nil => rfl
  | cons s rest ih =>
    rw [List.map_cons, List.flatMap_cons, ih]
    rfl

theorem listed_idle_steps (ss : List (Step × Bool)) :
    (ss.map StepAccount.idle).map (·.listed) = ss := by
  rw [List.map_map]
  exact List.map_id ss

theorem course_runSteps {on : Bool} {ss : List (Step × Bool)} {rs : List StepResult}
    (hstop : c = true → t.stopped = true)
    (h : (t.options.runSteps on ss).Course t.company b cues rs c) :
    ∃ as : List StepAccount, StepAccount.Sequel t on as ∧ as.map (·.listed) = ss ∧
      as.map (·.result) = rs ∧ as.flatMap (·.cues) = cues := by
  induction ss generalizing b cues rs with
  | nil =>
    obtain ⟨rfl, rfl, rfl⟩ := course_pure h
    exact ⟨[], .nil, rfl, rfl, rfl⟩
  | cons s rest ih =>
    obtain ⟨step, background⟩ := s
    obtain ⟨first, polled, b₁, second, rfl, h₁, h₂⟩ := course_seq h
    obtain ⟨-, rfl, rfl⟩ := course_isStopped h₁
    split at h₂
    · rename_i hpolled
      obtain ⟨rfl, rfl, rfl⟩ := course_pure h₂
      refine ⟨((step, background) :: rest).map .idle, .stopped _ (hstop hpolled), ?_, ?_, ?_⟩
      · exact listed_idle_steps _
      · exact (map_skipped _).symm
      · exact cues_idle_steps _
    · rename_i hpolled
      rw [Bool.not_eq_true] at hpolled
      subst hpolled
      obtain ⟨third, r, b₂, fourth, rfl, h₃, h₄⟩ := course_seq h₂
      obtain ⟨a, hstart, hlisted, rfl, rfl⟩ := course_runStep h₃
      split at h₄
      · rename_i hhalt
        obtain ⟨rfl, rfl, rfl⟩ := course_pure h₄
        refine ⟨a :: rest.map .idle, .halted rest hstart hhalt, ?_, ?_, ?_⟩
        · rw [List.map_cons, listed_idle_steps, hlisted]
        · rw [List.map_cons, ← map_skipped]
        · rw [List.flatMap_cons, cues_idle_steps]
          rfl
      · rename_i hhalt
        rw [Bool.not_eq_true] at hhalt
        obtain ⟨fifth, rs', b₃, sixth, rfl, h₅, h₆⟩ := course_seq h₄
        obtain ⟨rfl, rfl, rfl⟩ := course_pure h₆
        obtain ⟨as, hsequel, rfl, rfl, rfl⟩ := ih h₅
        refine ⟨a :: as, .further hstart hhalt hsequel, ?_, rfl, ?_⟩
        · rw [List.map_cons, hlisted]
        · simp

/-- An attempt that is begun when the run is not to stop. -/
theorem course_tryScenario {backgrounds : List Background} {p : PlannedScenario}
    {r : ScenarioResult} (hstop : c = true → t.stopped = true)
    (h : (t.options.tryScenario backgrounds p).Course t.company false cues r c) :
    ∃ a : AttemptAccount, a.Sound t backgrounds p ∧ a.result = r ∧ a.cues = cues := by
  obtain ⟨c₁, _, b₁, d₁, rfl, h₁, g₁⟩ := course_seq h
  obtain ⟨hcalm, rfl⟩ := course_enter h₁
  obtain ⟨c₂, _, b₂, d₂, rfl, h₂, g₂⟩ := course_seq g₁
  obtain ⟨hreset, rfl⟩ := course_reset h₂
  obtain ⟨c₃, entry, b₃, d₃, rfl, h₃, g₃⟩ := course_seq g₂
  obtain ⟨before, rfl, henters, hreport, hproceeds, hexits⟩ :=
    course_enterNode (.scenario p.scenario) rfl h₃
  obtain ⟨c₄, control, b₄, d₄, rfl, h₄, g₄⟩ := course_seq g₃
  obtain ⟨-, rfl⟩ := course_control h₄
  obtain ⟨c₅, results, b₅, d₅, rfl, h₅, g₅⟩ := course_seq g₄
  obtain ⟨c₆, report, b₆, d₆, rfl, h₆, g₆⟩ := course_seq g₅
  obtain ⟨c₇, _, b₇, d₇, rfl, h₇, g₇⟩ := course_seq g₆
  obtain ⟨-, rfl⟩ := course_leave h₇
  obtain ⟨rfl, hresult, rfl⟩ := course_pure g₇
  obtain ⟨after, rfl, hevents, rfl⟩ := course_exitNode (.scenario p.scenario) h₆
  rw [hexits, hproceeds, hreport] at hevents
  rw [hproceeds, hreport, HookReport.addAll_ofSlots] at hresult
  have hrise : b₅ = true → t.stopped = true := fun hb₅ => hstop (g₅.pairwise_rises.1 hb₅)
  have hsteps : ∃ as : List StepAccount,
      as.map (·.listed) = p.scenario.listedSteps backgrounds ∧ as.map (·.result) = results ∧
      as.flatMap (·.cues) = c₅ ∧
      (entry.proceeds = true → control.skipReason = none →
        StepAccount.Sequel t control.continueAfterFailure as) ∧
      (entry.proceeds = false ∨ control.skipReason ≠ none →
        as = (p.scenario.listedSteps backgrounds).map .idle) := by
    split at h₅
    · rename_i hrun
      rw [Bool.and_eq_true, Option.isNone_iff_eq_none] at hrun
      obtain ⟨as, hsequel, hlisted, hresults, hcues⟩ := course_runSteps hrise h₅
      refine ⟨as, hlisted, hresults, hcues, fun _ _ => hsequel, ?_⟩
      rintro (hfail | hskip)
      · rw [hrun.1] at hfail
        cases hfail
      · exact absurd hrun.2 hskip
    · rename_i hrun
      obtain ⟨rfl, rfl, rfl⟩ := course_pure h₅
      refine ⟨_, listed_idle_steps _, (map_skipped _).symm, cues_idle_steps _, ?_, fun _ => rfl⟩
      intro hok hnone
      rw [hok, hnone] at hrun
      exact absurd rfl hrun
  obtain ⟨as, hlisted, rfl, rfl, hsequel, hbarred⟩ := hsteps
  rw [hproceeds] at hsequel hbarred
  refine ⟨⟨⟨.scenario, [("scenario", .text p.scenario.name), ("tags", .texts p.tags.names)], b₁⟩,
      ⟨before, after⟩, control, as, r⟩,
    ⟨⟨rfl, rfl, hcalm, ?_, henters.crosses hevents⟩, hlisted, hsequel, hbarred, hresult⟩, rfl, ?_⟩
  · exact fun s hs => hreset.trans (henters.first s hs)
  · simp [AttemptAccount.cues, Passage.around]

/-- Tries that are begun when the run is not to stop: all but the last have failed. -/
theorem course_tryAgain {backgrounds : List Background} {p : PlannedScenario} {before left : Nat}
    {r : ScenarioResult} (hstop : c = true → t.stopped = true)
    (h : (t.options.tryAgain backgrounds p before left).Course t.company false cues r c) :
    ∃ (discarded : List AttemptAccount) (kept : AttemptAccount),
      (∀ a ∈ discarded, a.Sound t backgrounds p ∧ a.result.status.isFailure = true) ∧
      kept.Sound t backgrounds p ∧ discarded.length ≤ left ∧
      (discarded.length = left ∨ kept.result.status.isFailure = false ∨ t.stopped = true) ∧
      r = { kept.result with attempts := before + discarded.length + 1 } ∧
      (discarded ++ [kept]).flatMap (·.cues) = cues := by
  induction left generalizing before cues with
  | zero =>
    obtain ⟨first, r₁, b₁, second, rfl, h₁, h₂⟩ := course_seq h
    obtain ⟨rfl, rfl, rfl⟩ := course_pure h₂
    obtain ⟨kept, hkept, rfl, rfl⟩ := course_tryScenario hstop h₁
    exact ⟨[], kept, by simp, hkept, Nat.le_refl 0, .inl rfl, rfl, by simp⟩
  | succ left ih =>
    obtain ⟨first, r₁, b₁, second, rfl, h₁, h₂⟩ := course_seq h
    obtain ⟨a, ha, rfl, rfl⟩ :=
      course_tryScenario (fun hb₁ => hstop (h₂.pairwise_rises.1 hb₁)) h₁
    split at h₂
    · rename_i hfail
      obtain ⟨third, polled, b₂, fourth, rfl, h₃, h₄⟩ := course_seq h₂
      obtain ⟨-, rfl, rfl⟩ := course_isStopped h₃
      split at h₄
      · rename_i hpolled
        obtain ⟨rfl, rfl, rfl⟩ := course_pure h₄
        exact ⟨[], a, by simp, ha, Nat.zero_le _, .inr (.inr (hstop hpolled)), rfl, by simp⟩
      · rename_i hpolled
        rw [Bool.not_eq_true] at hpolled
        subst hpolled
        obtain ⟨discarded, kept, hdiscarded, hkept, hle, hend, rfl, rfl⟩ := ih h₄
        refine ⟨a :: discarded, kept, ?_, hkept, Nat.succ_le_succ hle, ?_, ?_, by simp⟩
        · intro x hx
          rcases List.mem_cons.1 hx with rfl | hx
          · exact ⟨ha, hfail⟩
          · exact hdiscarded x hx
        · exact hend.imp_left (congrArg Nat.succ)
        · have hcount : before + 1 + discarded.length + 1 =
              before + (a :: discarded).length + 1 := by
            rw [List.length_cons]
            omega
          rw [hcount]
    · rename_i hok
      obtain ⟨rfl, rfl, rfl⟩ := course_pure h₂
      rw [Bool.not_eq_true] at hok
      exact ⟨[], a, by simp, ha, Nat.zero_le _, .inr (.inl hok), rfl, by simp⟩

theorem course_runScenario {backgrounds : List Background} {p : PlannedScenario}
    {r : ScenarioResult} (hstop : c = true → t.stopped = true)
    (h : (t.options.runScenario backgrounds p).Course t.company b cues r c) :
    ∃ a : ScenarioAccount, a.Sound t true backgrounds ∧ a.planned = p ∧ a.result = r ∧
      a.cues = cues := by
  obtain ⟨rfl, rfl, -, hidle⟩ | ⟨hselected, -, htried⟩ := course_selected h
  · exact ⟨_, .idle p (hidle.imp_right fun hc => .inl (hstop hc)), rfl, rfl, rfl⟩
  · obtain ⟨first, r₁, b₁, second, rfl, h₁, h₂⟩ := course_seq htried
    obtain ⟨discarded, kept, hdiscarded, hkept, hle, hend, hr, rfl⟩ :=
      course_tryAgain (fun hb₁ => hstop (h₂.pairwise_rises.1 hb₁)) h₁
    have hlast : second = [] ∧ r = r₁ := by
      split at h₂
      · obtain ⟨third, _, b₂, fourth, rfl, h₃, h₄⟩ := course_seq h₂
        obtain ⟨rfl, -⟩ := course_stop h₃
        obtain ⟨rfl, hsame, -⟩ := course_pure h₄
        exact ⟨rfl, hsame⟩
      · obtain ⟨rfl, hsame, -⟩ := course_pure h₂
        exact ⟨rfl, hsame⟩
    obtain ⟨rfl, rfl⟩ := hlast
    rw [Nat.zero_add] at hr
    refine ⟨⟨p, discarded, some kept, r⟩, ?_, rfl, rfl, by
      simp [ScenarioAccount.cues, ScenarioAccount.attempts]⟩
    rw [hr]
    exact .tried rfl hselected hdiscarded hkept (by omega) (hend.imp_left fun _ => by omega)

end Work

end Rehearsal
