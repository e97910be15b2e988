import Rehearsal.Proofs.Trail

/-!
# Retries

What is asked for a scenario consists of the attempts at it, one after the other, and of nothing
else that begins one (`ScenarioTrail.Consists`). The attempts are tries in the sense of
`RunOptions.tryScenario`; after one that has failed it may be asked whether the run is to stop.

`Runner.retries_bounded` says when there is another attempt: there are at most as many as the plan
allows, all but the last have failed with the run not to stop, and the last one either was the last
allowed, has not failed, or has left the run to be stopped. Only the last one counts.
-/

namespace Rehearsal

/-- An attempt at a scenario: what was asked in it, its result, and the stage on which it was asked
right after it whether the run is to stop, if that was asked. -/
structure Attempt (W : Type) where
  turns : List (Turn W)
  result : ScenarioResult
  poll : Option (Stage W)

namespace Attempt

/-- What was asked in the attempt and right after it. -/
def span (a : Attempt W) : List (Turn W) := a.turns ++ a.poll.toList.map fun s => ⟨s, .isStopped⟩

/-- The attempt goes along a line of the work on it. -/
def Goes (r : Runner W) (backgrounds : List Background) (p : PlannedScenario) (a : Attempt W) :
    Prop :=
  ∃ c d, r.Line (r.options.tryScenario backgrounds p) c false a.turns a.result d

/-- The attempt has failed, and the run was not to stop after it. -/
def Invites (a : Attempt W) : Prop :=
  (a.result.status = .failed ∨ a.result.status = .error) ∧ ∃ s ∈ a.poll, s.isStopped = false

/-- The attempt has not failed, or the run was to stop after it. -/
def Settles (a : Attempt W) : Prop :=
  (a.result.status ≠ .failed ∧ a.result.status ≠ .error) ∨ ∃ s ∈ a.poll, s.isStopped = true

end Attempt

theorem Status.isFailure_iff {s : Status} : s.isFailure = true ↔ s = .failed ∨ s = .error := by
  cases s <;> decide

namespace Work

/-- What is asked and replied determines the result. -/
theorem Way.unique {w : Work α} {es : List Exchange} {a b : α} (ha : w.Way es a) (hb : w.Way es b) :
    b = a := by
  induction ha with
  | done a =>
    cases hb
    rfl
  | ask h ih =>
    cases hb with
    | ask hb => exact ih hb

section Lacks

variable {o : RunOptions}

theorem lacks_callStep (m : StepMatch) (step : Step) :
    (RunOptions.callStep m step).Lacks Request.begins := by
  refine Lacks.seq (lacks_request rfl) fun reply => ?_
  split
  · exact lacks_pure _
  · split
    · exact Lacks.seq (lacks_request rfl) fun _ => lacks_pure _
    · exact lacks_pure _

theorem lacks_runMatched (m : StepMatch) (step : Step) (background : Bool) :
    (o.runMatched m step background).Lacks Request.begins := by
  refine Lacks.seq (lacks_slot rfl rfl) fun before => ?_
  refine Lacks.seq ?_ fun verdict => Lacks.seq (lacks_slot rfl rfl) fun after => lacks_pure _
  split
  · exact lacks_callStep m step
  · exact lacks_pure _

theorem lacks_runStep (step : Step) (background : Bool) :
    (o.runStep step background).Lacks Request.begins := by
  refine Lacks.seq (lacks_request rfl) fun found => ?_
  split
  · exact lacks_pure _
  · exact lacks_pure _
  · split
    · exact lacks_pure _
    · exact lacks_runMatched _ step background

theorem lacks_runSteps (on : Bool) (ss : List (Step × Bool)) :
    (o.runSteps on ss).Lacks Request.begins := by
  induction ss with
  | nil => exact lacks_pure _
  | cons s rest ih =>
    refine Lacks.seq (lacks_request rfl) fun polled => ?_
    split
    · exact lacks_pure _
    · refine (lacks_runStep _ _).seq fun result => ?_
      split
      · exact lacks_pure _
      · exact ih.seq fun results => lacks_pure _

end Lacks

end Work

namespace Runner.Line

variable {r : Runner W} {c d : Context} {b : Bool} {xs : List (Turn W)}
  {backgrounds : List Background} {p : PlannedScenario} {result : ScenarioResult}

/-- An attempt is begun once. -/
theorem countP_begins (h : r.Line (r.options.tryScenario backgrounds p) c b xs result d) :
    xs.countP (·.request.begins) = 1 := by
  obtain ⟨xs₁, _, c₁, xs₂, rfl, h₁, h₂⟩ := h.of_seq
  obtain ⟨s, rfl, -⟩ := h₁.of_request
  -- no work but the first request enters a scenario
  have hrest : ∀ x ∈ xs₂, x.request.begins = false := by
    refine h₂.lacks ?_
    refine Work.Lacks.seq (Work.lacks_request rfl) fun _ =>
      Work.Lacks.seq (Work.lacks_enterNode rfl (fun _ => rfl) _ rfl) fun entry =>
      Work.Lacks.seq (Work.lacks_request rfl) fun control =>
      Work.Lacks.seq ?_ fun steps =>
      Work.Lacks.seq (Work.lacks_exitNode rfl (fun _ => rfl) _ rfl) fun report =>
      Work.Lacks.seq (Work.lacks_request rfl) fun _ => Work.lacks_pure _
    split
    · exact Work.lacks_runSteps _ _
    · exact Work.lacks_pure _
  rw [List.singleton_append, List.countP_cons, List.countP_eq_zero.2 (by simpa using hrest)]
  rfl

/-- Tries after which there are `left` more to come: all but the last have failed. -/
theorem exists_attempts_tryAgain {before left : Nat}
    (h : r.Line (r.options.tryAgain backgrounds p before left) c b xs result d) :
    ∃ (discarded : List (Attempt W)) (kept : Attempt W),
      xs = (discarded ++ [kept]).flatMap (·.span) ∧
      (∀ a ∈ discarded ++ [kept], a.Goes r backgrounds p) ∧ discarded.length ≤ left ∧
      (∀ a ∈ discarded, a.Invites) ∧ (discarded.length < left → kept.Settles) ∧
      result = { kept.result with attempts := before + discarded.length + 1 } := by
  -- the tries that are left bound the attempts; one more is made only after a failure, when it was
  -- asked in between whether the run is to stop
  induction left generalizing before c b xs with
  | zero =>
    obtain ⟨first, kept, c₁, _, rfl, h₁, h₂⟩ := h.of_seq
    obtain ⟨rfl, rfl, rfl⟩ := h₂.of_pure
    refine ⟨[], ⟨first, kept, none⟩, by simp [Attempt.span], ?_, Nat.le_refl 0, by simp,
      fun hlt => absurd hlt (Nat.lt_irrefl 0), rfl⟩
    simpa [Attempt.Goes] using ⟨c, _, h₁.mono Bool.noConfusion⟩
  | succ left ih =>
    obtain ⟨first, tried, c₁, second, rfl, h₁, h₂⟩ := h.of_seq
    have hgoes : ∀ poll, Attempt.Goes r backgrounds p ⟨first, tried, poll⟩ :=
      fun poll => ⟨c, c₁, h₁.mono Bool.noConfusion⟩
    split at h₂
    · rename_i hfail
      obtain ⟨s, rest, rfl, h₃⟩ := h₂.of_poll
      split at h₃
      · rename_i hstop
        obtain ⟨rfl, rfl, rfl⟩ := h₃.of_pure
        exact ⟨[], ⟨first, tried, some s⟩, by simp [Attempt.span], by simpa using hgoes _,
          Nat.zero_le _, by simp, fun _ => .inr ⟨s, rfl, hstop⟩, rfl⟩
      · rename_i hgo
        rw [Bool.not_eq_true] at hgo
        obtain ⟨discarded, kept, rfl, hall, hle, hinvites, hsettles, rfl⟩ := ih h₃
        refine ⟨⟨first, tried, some s⟩ :: discarded, kept, by simp [Attempt.span], ?_,
          Nat.succ_le_succ hle, ?_, fun hlt => hsettles (Nat.lt_of_succ_lt_succ hlt), ?_⟩
        · exact List.forall_mem_cons.2 ⟨hgoes _, hall⟩
        · exact List.forall_mem_cons.2 ⟨⟨Status.isFailure_iff.1 hfail, s, rfl, hgo⟩, hinvites⟩
        · rw [List.length_cons, Nat.add_right_comm before 1, ← Nat.add_assoc before]
    · rename_i hok
      obtain ⟨rfl, rfl, rfl⟩ := h₂.of_pure
      rw [Status.isFailure_iff, not_or] at hok
      exact ⟨[], ⟨first, tried, none⟩, by simp [Attempt.span], by simpa using hgoes _,
        Nat.zero_le _, by simp, fun _ => .inl hok, rfl⟩

end Runner.Line

/-- The attempts are all that there were at the scenario, in their order, and the last one has come
to its result. -/
structure ScenarioTrail.Consists (r : Runner W) (s : ScenarioTrail W)
    (attempts : List (Attempt W)) : Prop where
  turns : ∃ before after, s.turns = before ++ attempts.flatMap (·.span) ++ after ∧
    ∀ x ∈ before ++ after, x.request.begins = false
  goes : ∀ a ∈ attempts, a.Goes r s.backgrounds s.planned
  idle : attempts = [] → s.result = s.planned.skipped s.backgrounds
  kept : ∀ a ∈ attempts.getLast?, s.result = { a.result with attempts := attempts.length }

/-- The scenario was tried again as long as its plan allows it and there was need to. -/
structure ScenarioTrail.Retries (s : ScenarioTrail W) (attempts : List (Attempt W)) : Prop where
  /-- A scenario that is selected, and not barred by the wish to stop, is tried. -/
  tried : ∀ x ∈ s.turns.head?, x.stage.isStopped = false → 1 ≤ attempts.length
  bound : attempts.length ≤ max 1 s.planned.maxAttempts
  discarded : ∀ a ∈ attempts.dropLast, a.Invites
  settled : attempts.length < max 1 s.planned.maxAttempts → ∀ a ∈ attempts.getLast?, a.Settles
  count : s.result.attempts = attempts.length

namespace ScenarioTrail

variable {r : Runner W} {s : ScenarioTrail W} {attempts : List (Attempt W)}

/-- The recorded number of attempts is the number of times that one was begun. -/
theorem Consists.countP_begins (h : s.Consists r attempts) :
    s.turns.countP (·.request.begins) = attempts.length := by
  obtain ⟨before, after, hturns, hquiet⟩ := h.turns
  have hnone : ∀ xs : List (Turn W), (∀ x ∈ xs, x.request.begins = false) →
      xs.countP (·.request.begins) = 0 := fun xs hxs => List.countP_eq_zero.2 (by simpa using hxs)
  obtain ⟨hbefore, hafter⟩ := List.forall_mem_append.1 hquiet
  have hspan : ∀ a ∈ attempts, a.span.countP (·.request.begins) = 1 := by
    intro a ha
    obtain ⟨c, d, hline⟩ := h.goes a ha
    rw [Attempt.span, List.countP_append, hline.countP_begins, hnone]
    simp [Request.begins]
  rw [hturns, List.countP_append, List.countP_append, hnone _ hbefore, hnone _ hafter,
    List.countP_flatMap, Nat.zero_add, Nat.add_zero]
  change (attempts.map fun a => a.span.countP (·.request.begins)).sum = _
  rw [List.map_congr_left hspan, List.map_const', List.sum_replicate_nat, Nat.mul_one]

/-- Only the last attempt counts: what was asked and replied in it determines the result. -/
theorem Consists.alone (h : s.Consists r attempts) {a : Attempt W} (ha : attempts.getLast? = some a)
    {result : ScenarioResult} (hway : (r.options.tryScenario s.backgrounds s.planned).Way
      (a.turns.map fun x => (x.deed r).exchange) result) :
    s.result = { result with attempts := attempts.length } := by
  obtain ⟨c, d, hline⟩ := h.goes a (List.mem_of_getLast? ha)
  rw [h.kept a ha, hline.way.unique hway]

/-- A scenario that was tried shows the steps of one of its attempts. -/
theorem Consists.exists_steps (h : s.Consists r attempts) (htried : s.result.attempts ≠ 0) :
    ∃ a ∈ attempts, a.result.steps = s.result.steps := by
  have hne : attempts ≠ [] := fun hnil => htried (by rw [h.idle hnil]; rfl)
  have hlast := List.getLast?_eq_some_getLast hne
  exact ⟨_, List.getLast_mem hne, by rw [h.kept _ hlast]⟩

/-- A scenario that is not tried. -/
theorem consists_nil (hresult : s.result = s.planned.skipped s.backgrounds)
    (hquiet : ∀ x ∈ s.turns, x.request.begins = false) : s.Consists r [] :=
  ⟨⟨s.turns, [], by simp, by simpa using hquiet⟩, by simp, fun _ => hresult, by simp⟩

theorem retries_nil (hresult : s.result = s.planned.skipped s.backgrounds)
    (htried : ∀ x ∈ s.turns.head?, x.stage.isStopped = true) : s.Retries [] where
  tried x hx hgo := by
    rw [htried x hx] at hgo
    cases hgo
  bound := Nat.zero_le _
  discarded := by simp
  settled := by simp
  count := by
    rw [hresult]
    rfl

theorem exists_attempts (h : s.Goes r) :
    ∃ attempts, s.Consists r attempts ∧ s.Retries attempts := by
  rcases h with hidle | ⟨c, d, hline⟩
  · rw [hidle]
    exact ⟨[], consists_nil rfl (by simp [idle]), retries_nil rfl (by simp [idle])⟩
  · unfold RunOptions.runScenario at hline
    split at hline
    · obtain ⟨t, rest, hturns, hrest⟩ := hline.of_poll
      split at hrest
      · rename_i hstop
        obtain ⟨rfl, hresult, -⟩ := hrest.of_pure
        exact ⟨[], consists_nil hresult (by simp [hturns, Request.begins]),
          retries_nil hresult (by simpa [hturns] using hstop)⟩
      · obtain ⟨tries, tried, c₁, last, rfl, htries, hlast⟩ := hrest.of_seq
        obtain ⟨discarded, kept, rfl, hgoes, hle, hinvites, hsettles, rfl⟩ :=
          htries.exists_attempts_tryAgain
        have hend : s.result = { kept.result with attempts := 0 + discarded.length + 1 } ∧
            ∀ x ∈ last, x.request.begins = false := by
          split at hlast
          · obtain ⟨stopping, _, c₂, nothing, rfl, hstopping, hnothing⟩ := hlast.of_seq
            obtain ⟨rfl, hresult, -⟩ := hnothing.of_pure
            rw [List.append_nil]
            exact ⟨hresult, hstopping.lacks (Work.lacks_request rfl)⟩
          · obtain ⟨rfl, hresult, -⟩ := hlast.of_pure
            exact ⟨hresult, by simp⟩
        obtain ⟨hresult, hquiet⟩ := hend
        rw [Nat.zero_add] at hresult
        have hlength : (discarded ++ [kept]).length = discarded.length + 1 := by simp
        refine ⟨discarded ++ [kept], ⟨⟨[⟨t, .isStopped⟩], last, by simpa using hturns, ?_⟩, hgoes,
          by simp, ?_⟩, ⟨?_, ?_, ?_, ?_, ?_⟩⟩
        · simpa [Request.begins] using hquiet
        · simpa [hlength] using hresult
        · exact fun _ _ _ => by omega
        · omega
        · simpa using hinvites
        · intro hlt
          simpa using hsettles (by omega)
        · rw [hresult, hlength]
    · obtain ⟨hturns, hresult, -⟩ := hline.of_pure
      exact ⟨[], consists_nil hresult (by simp [hturns]), retries_nil hresult (by simp [hturns])⟩

end ScenarioTrail

namespace Runner

variable {r : Runner W} {suite : Suite} {world : W} {cancelled : Bool} {xs : List (Turn W)}
  {e : Ended W}

/-- However a run goes, every scenario of its plan that is tried at all is tried again only after a
failure with the run not to stop, and no more often than its plan allows. The recorded number of
attempts is the number of times that one was begun, and everything else that is recorded is settled
by what was asked and replied in the last one. -/
theorem retries_bounded (h : r.Goes suite world cancelled xs e) :
    ∃ result ss, e.report? = some result ∧
      r.Shows xs ((r.options.plan suite).features.flatMap PlannedFeature.scenarios)
        result.scenarios ss ∧
      ∀ s ∈ ss, ∃ attempts, s.Consists r attempts ∧ s.Retries attempts ∧
        s.turns.countP (·.request.begins) = s.result.attempts ∧
        ∀ a ∈ attempts.getLast?, ∀ outcome,
          (r.options.tryScenario s.backgrounds s.planned).Way
            (a.turns.map fun x => (x.deed r).exchange) outcome →
          s.result = { outcome with attempts := attempts.length } := by
  obtain ⟨result, ss, hreport, hshows⟩ := h.exists_shows
  refine ⟨result, ss, hreport, hshows, fun s hs => ?_⟩
  obtain ⟨attempts, hconsists, hretries⟩ :=
    ScenarioTrail.exists_attempts (hshows.goes s hs)
  exact ⟨attempts, hconsists, hretries, hconsists.countP_begins.trans hretries.count.symm,
    fun a ha outcome hway => hconsists.alone ha hway⟩

/-- A scenario fails twice and may be tried twice. -/
theorem retries_bounded_twice :
    let hooks : Hooks Unit :=
      Hooks.none.register .afterScenario fun _ => .done (.error "boom" false)
    let r := { ofHooks hooks with
      options := { RunOptions.default with retry := some ⟨2, .all⟩ } }
    let suite := Suite.single (.named "scenario")
    suite.violation? = none ∧ ∃ (s : ScenarioTrail Unit) (attempts : List (Attempt Unit)),
      s.Consists r attempts ∧ s.Retries attempts ∧ attempts.length = 2 ∧
      s.result.status = .error := by
  intro hooks r suite
  have hvalid : suite.violation? = none := by decide
  obtain ⟨result, ss, hreport, hshows, hall⟩ :=
    retries_bounded (.inOrder hvalid : r.Goes suite () false _ _)
  have hresult : (r.run suite () false).report?.map (fun result =>
      result.scenarios.map fun s => (s.attempts, s.status)) = some [(2, .error)] := by decide
  rw [hreport, Option.map_some, Option.some.injEq] at hresult
  obtain ⟨s, rfl, hs⟩ := hshows.exists_single hresult
  obtain ⟨hcount, hstatus⟩ := Prod.mk.inj hs
  obtain ⟨attempts, hconsists, hretries, -⟩ := hall s List.mem_cons_self
  exact ⟨hvalid, s, attempts, hconsists, hretries, hretries.count.symm.trans hcount, hstatus⟩

end Runner

end Rehearsal
