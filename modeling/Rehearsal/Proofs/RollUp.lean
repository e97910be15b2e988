import Rehearsal.Proofs.Account.Run

/-!
# Statuses roll up

The status of a node is the heaviest of those of its parts, and at least `error` if one of
its own slots has failed without asking that the run be stopped. The slots on leaving are told
the status as it is before any of them is called. `RollsUp` says so of a node, an attempt, a
scenario, a rule, a feature and a run, and `isSuccess_iff` adds up what makes a run succeed.
-/

namespace Rehearsal

namespace Status

theorem le_refl (a : Status) : a ≤ a := Nat.le_refl a.weight

theorem le_trans {a b c : Status} (hab : a ≤ b) (hbc : b ≤ c) : a ≤ c := Nat.le_trans hab hbc

theorem le_max_left (a b : Status) : a ≤ a.max b := by
  rw [le_def, weight_max]
  exact Nat.le_max_left a.weight b.weight

theorem le_max_right (a b : Status) : b ≤ a.max b := by
  rw [le_def, weight_max]
  exact Nat.le_max_right a.weight b.weight

theorem max_eq (a b : Status) : a.max b = a ∨ a.max b = b := by
  unfold max
  split
  · exact .inr rfl
  · exact .inl rfl

/-- No status is lighter than `untested`. -/
theorem eq_untested_of_le {s : Status} (h : s ≤ untested) : s = untested :=
  weight_injective (Nat.le_zero.1 h)

theorem foldl_max (ss : List Status) (a : Status) :
    a ≤ ss.foldl max a ∧ (∀ s ∈ ss, s ≤ ss.foldl max a) ∧
      (ss.foldl max a = a ∨ ss.foldl max a ∈ ss) := by
  induction ss generalizing a with
  | nil => exact ⟨le_refl a, by simp, .inl rfl⟩
  | cons s rest ih =>
    obtain ⟨hstart, hle, hmem⟩ := ih (a.max s)
    rw [List.foldl_cons]
    refine ⟨le_trans (le_max_left a s) hstart, ?_, ?_⟩
    · exact List.forall_mem_cons.2 ⟨le_trans (le_max_right a s) hstart, hle⟩
    · rcases hmem with hmem | hmem
      · rw [hmem]
        rcases max_eq a s with hsame | hsame
        · exact .inl hsame
        · rw [hsame]
          exact .inr (by simp)
      · exact .inr (List.mem_cons_of_mem s hmem)

structure Heaviest (m : Status) (ss : List Status) : Prop where
  mem : m ∈ ss
  le : ∀ s ∈ ss, s ≤ m

/-- The rollup of some statuses is the heaviest of them. -/
theorem heaviest_rollup {ss : List Status} (h : ss ≠ []) : (rollup ss).Heaviest ss := by
  obtain ⟨-, hle, hmem⟩ := foldl_max ss untested
  refine ⟨?_, hle⟩
  rcases hmem with hmem | hmem
  · obtain ⟨s, hs⟩ := List.exists_mem_of_ne_nil ss h
    have hlight := hle s hs
    rw [hmem] at hlight
    rw [rollup, hmem, ← eq_untested_of_le hlight]
    exact hs
  · exact hmem

/-- If some statuses are all the same, none is heavier. -/
theorem heaviest_of_forall {m : Status} {ss : List Status} (hne : ss ≠ [])
    (h : ∀ s ∈ ss, s = m) : m.Heaviest ss := by
  refine ⟨?_, fun s hs => ?_⟩
  · obtain ⟨s, hs⟩ := List.exists_mem_of_ne_nil ss hne
    rw [← h s hs]
    exact hs
  · rw [h s hs]
    exact le_refl m

@[simp] theorem isSuccess_max (a b : Status) :
    (a.max b).isSuccess = (a.isSuccess && b.isSuccess) := by
  cases a <;> cases b <;> rfl

/-- The heaviest status counts as success if all do. -/
theorem Heaviest.isSuccess {m : Status} {ss : List Status} (h : m.Heaviest ss) :
    m.isSuccess = true ↔ ∀ s ∈ ss, s.isSuccess = true := by
  constructor
  · intro hm s hs
    have hle : m ≤ passed := of_decide_eq_true hm
    exact decide_eq_true (le_trans (h.le s hs) hle)
  · intro hall
    exact hall m h.mem

/-- A status counts as success unless it is one of three. -/
theorem isSuccess_iff (s : Status) :
    s.isSuccess = true ↔ s ≠ undefined ∧ s ≠ error ∧ s ≠ failed := by
  cases s <;> decide

end Status

theorem SlotCue.any_fails_eq_false_iff {ss : List SlotCue} :
    ss.any (·.fails) = false ↔ ∀ s ∈ ss, s.fails = false := by
  rw [List.any_eq_false]
  exact forall₂_congr fun s _ => (Bool.not_eq_true _).to_iff

/-- What slots make of the status of a node, given that of what lies in it. -/
theorem HookReport.weigh_ofSlots (ss : List SlotCue) (s : Status) :
    (ofSlots ss).weigh s = if ss.any (·.fails) then s.max .error else s := by
  rw [weigh, failed_ofSlots]

namespace Passage

/-- The status of a node comes from that of what lies in it and from its slots, and those on
leaving are told what it is before them. -/
structure RollsUp (p : Passage) (inner final : Status) : Prop where
  weighed : final = if p.slots.any (·.fails) then inner.max .error else inner
  told : ∀ s ∈ p.after,
    s.event.status = some (if p.before.any (·.fails) then inner.max .error else inner)
  le : ∀ s ∈ p.after, ∀ told, s.event.status = some told → told ≤ final

/-- No slot has failed without asking that the run be stopped. -/
def Clean (p : Passage) : Prop := ∀ s ∈ p.slots, s.fails = false

/-- The status of a node comes from the heaviest of its parts; without parts nothing speaks
against success but the slots. -/
def Gathers (p : Passage) (parts : List Status) (final : Status) : Prop :=
  ∃ inner, (parts ≠ [] → inner.Heaviest parts) ∧ (parts = [] → inner.isSuccess = true) ∧
    p.RollsUp inner final

theorem RollsUp.isSuccess {p : Passage} {inner final : Status} (h : p.RollsUp inner final) :
    final.isSuccess = true ↔ inner.isSuccess = true ∧ p.Clean := by
  rw [Clean, ← SlotCue.any_fails_eq_false_iff, h.weighed]
  cases p.slots.any (·.fails) with
  | true =>
    have herror : Status.error.isSuccess = false := rfl
    simp [herror]
  | false => simp

theorem Gathers.isSuccess {p : Passage} {parts : List Status} {final : Status}
    (h : p.Gathers parts final) :
    final.isSuccess = true ↔ (∀ s ∈ parts, s.isSuccess = true) ∧ p.Clean := by
  obtain ⟨inner, hheaviest, hempty, hrolls⟩ := h
  rw [hrolls.isSuccess]
  by_cases hparts : parts = []
  · simp [hempty hparts, hparts]
  · rw [(hheaviest hparts).isSuccess]

theorem Crosses.rollsUp {o : RunOptions} {n : HookScope} {p : Passage} {inner : Status}
    (h : p.Crosses o n ((HookReport.ofSlots p.before).weigh inner)) :
    p.RollsUp inner ((HookReport.ofSlots p.slots).weigh inner) := by
  have htold : ∀ s ∈ p.after,
      s.event.status = some (if p.before.any (·.fails) then inner.max .error else inner) := by
    intro s hs
    obtain ⟨s', -, hevent⟩ := h.exists_closing hs
    rw [← hevent, ← HookReport.weigh_ofSlots]
    rfl
  refine ⟨HookReport.weigh_ofSlots p.slots inner, htold, ?_⟩
  intro s hs told hsome
  rw [htold s hs, Option.some.injEq] at hsome
  rw [← hsome, HookReport.weigh_ofSlots, slots, List.any_append]
  cases p.before.any (·.fails) with
  | true =>
    rw [Bool.true_or]
    exact Status.le_refl _
  | false =>
    rw [Bool.false_or]
    cases p.after.any (·.fails) with
    | true => exact Status.le_max_left inner .error
    | false => exact Status.le_refl inner

/-- Without slots the status is that of what lies in the node. -/
theorem rollsUp_none (inner : Status) : Passage.none.RollsUp inner inner :=
  ⟨rfl, by simp [none], by simp [none]⟩

theorem gathers_skipped {parts : List Status} (h : ∀ s ∈ parts, s = .skipped) :
    Passage.none.Gathers parts .skipped :=
  ⟨.skipped, fun hne => Status.heaviest_of_forall hne h, fun _ => rfl, rollsUp_none _⟩

end Passage

theorem Visited.gathers {t : Terms} {b : Bool} {n : HookScope} {values : List (String × Datum)}
    {parts : List Status} {start : EnterCue} {p : Passage}
    (h : Visited t b n values ((HookReport.ofSlots p.before).weigh (.rollup parts)) start p) :
    p.Gathers parts ((HookReport.ofSlots p.slots).weigh (.rollup parts)) := by
  refine ⟨.rollup parts, Status.heaviest_rollup, ?_, h.crosses.rollsUp⟩
  rintro rfl
  rfl

variable {t : Terms} {e : Bool} {around : List Background}

namespace StepAccount

/-- The status of a step comes from the verdict on it and from its slots. -/
def RollsUp (a : StepAccount) : Prop :=
  ∀ before, a.passage.before = [before] →
    a.passage.RollsUp (before.verdict a.call).status a.result.status

theorem rollsUp_idle (s : Step × Bool) : (idle s).RollsUp := by
  rintro before ⟨⟩

/-- A slot that fails before a step is in the verdict on the step already. -/
theorem weigh_verdict {before : SlotCue} {call : Option CallCue}
    (hcalls : call.isSome = before.isOk) :
    (HookReport.ofSlots [before]).weigh (before.verdict call).status =
      (before.verdict call).status := by
  rw [HookReport.weigh_ofSlots]
  split
  · rename_i hfails
    rw [List.any_cons, List.any_nil, Bool.or_false] at hfails
    rw [before.isOk_eq_false_iff.2 (.inl hfails)] at hcalls
    cases call with
    | none =>
      simp only [SlotCue.verdict, hfails]
      rfl
    | some c => cases hcalls
  · rfl

theorem Started.rollsUp {a : StepAccount} (h : a.Started t) : a.RollsUp := by
  cases h with
  | faulty => rintro before ⟨⟩
  | unknown => rintro before ⟨⟩
  | dry => rintro before ⟨⟩
  | @matched step background stopped m before after call hdry calm first opens calls own closes =>
    rintro before ⟨⟩
    have hcrosses := Passage.crosses_step hdry opens closes
    rw [← weigh_verdict calls] at hcrosses
    exact hcrosses.rollsUp

end StepAccount

namespace AttemptAccount

structure RollsUp (a : AttemptAccount) : Prop where
  node : a.passage.Gathers (a.result.steps.map (·.status)) a.result.status
  listed : a.result.steps = a.steps.map (·.result)
  steps : ∀ s ∈ a.steps, s.RollsUp

variable {p : PlannedScenario} {a : AttemptAccount}

/-- A scenario that was asked to be skipped has only skipped steps. -/
theorem Sound.status_of_skip (h : a.Sound t around p) (hskip : a.control.skipReason ≠ none) :
    ∀ s ∈ a.result.steps, s.status = .skipped := by
  intro s hs
  rw [h.steps_result, h.barred (.inr hskip), List.map_map] at hs
  obtain ⟨listed, -, rfl⟩ := List.mem_map.1 hs
  rfl

theorem Sound.rollsUp (h : a.Sound t around p) : a.RollsUp := by
  refine ⟨⟨a.bodyStatus t.options, ?_, ?_, ?_⟩, h.steps_result, ?_⟩
  · intro hne
    -- the request to skip leaves all steps skipped, and is the only case apart
    unfold bodyStatus RunOptions.bodyStatus
    split
    · rename_i hskip
      rw [Option.isSome_iff_ne_none] at hskip
      exact Status.heaviest_of_forall hne (List.forall_mem_map.2 (h.status_of_skip hskip))
    · rw [h.steps_result] at hne ⊢
      have hfilled : (a.steps.map (·.result)).isEmpty = false := by
        cases hsteps : a.steps with
        | nil =>
          rw [hsteps] at hne
          exact absurd rfl hne
        | cons s rest => rfl
      rw [hfilled, Bool.false_and]
      exact Status.heaviest_rollup hne
  · intro hnil
    rw [List.map_eq_nil_iff, h.steps_result] at hnil
    unfold bodyStatus RunOptions.bodyStatus
    rw [hnil]
    cases a.control.skipReason.isSome <;> cases a.passage.proceeds <;>
      cases t.options.dryRun <;> rfl
  · have hcrosses := h.visited.crosses.rollsUp
    rw [h.result]
    exact hcrosses
  · intro s hs
    rcases h.started_or_idle s hs with hstart | ⟨listed, rfl⟩
    · exact hstart.rollsUp
    · exact StepAccount.rollsUp_idle listed

end AttemptAccount

namespace ScenarioAccount

/-- The status of a scenario is that of its last attempt, or `skipped` if there was none. -/
structure RollsUp (a : ScenarioAccount) : Prop where
  untouched : a.result.attempts = 0 → a.kept = none ∧
    a.result.status = .skipped ∧ ∀ s ∈ a.result.steps, s.status = .skipped
  started : a.result.attempts ≠ 0 → ∃ x, a.kept = some x ∧
    a.result.status = x.result.status ∧ a.result.steps = x.result.steps
  attempts : ∀ x ∈ a.attempts, x.RollsUp

theorem Sound.rollsUp {a : ScenarioAccount} (h : a.Sound t e around) : a.RollsUp := by
  have hattempts : ∀ x ∈ a.attempts, x.RollsUp := fun x hx => (h.attempt hx).rollsUp
  cases h with
  | idle p hidle =>
    have huntouched := p.untouched_skipped around
    exact ⟨fun _ => ⟨rfl, huntouched.2⟩, fun hne => absurd huntouched.1 hne, hattempts⟩
  | tried => exact ⟨fun hzero => absurd hzero (Nat.succ_ne_zero _), fun _ => ⟨_, rfl, rfl, rfl⟩,
      hattempts⟩

end ScenarioAccount

theorem PlannedRule.status_skipped (p : PlannedRule) (backgrounds : List Background) :
    ∀ s ∈ (p.skipped backgrounds).scenarios, s.status = .skipped := by
  intro s hs
  obtain ⟨q, -, rfl⟩ := List.mem_map.1 hs
  rfl

theorem PlannedFeature.status_skipped (p : PlannedFeature) :
    ∀ c ∈ p.skipped.children, c.status = .skipped := by
  intro c hc
  obtain ⟨q, -, rfl⟩ := List.mem_map.1 hc
  cases q <;> rfl

namespace RuleAccount

structure RollsUp (a : RuleAccount) : Prop where
  node : a.passage.Gathers (a.result.scenarios.map (·.status)) a.result.status
  listed : a.result.scenarios = a.scenarios.map (·.result)
  scenarios : ∀ s ∈ a.scenarios, s.RollsUp

theorem Sound.rollsUp {a : RuleAccount} (h : a.Sound t e around) : a.RollsUp := by
  refine ⟨?_, h.scenarios_result, fun s hs => ?_⟩
  · cases h with
    | idle p hidle =>
      exact Passage.gathers_skipped (List.forall_mem_map.2 (p.status_skipped _))
    | @visited p start passage scenarios he hselected hvisited hplanned hinside =>
      change passage.Gathers ((scenarios.map (·.result)).map (·.status)) _
      rw [List.map_map]
      exact hvisited.gathers
  · obtain ⟨e, backgrounds, hsound⟩ := h.scenario hs
    exact hsound.rollsUp

end RuleAccount

namespace ChildAccount

def RollsUp : ChildAccount → Prop
  | scenario s => s.RollsUp
  | rule r => r.RollsUp

theorem rollsUp {a : ChildAccount} (h : a.Sound t e around) : a.RollsUp := by
  cases a with
  | scenario s => exact ScenarioAccount.Sound.rollsUp h
  | rule r => exact RuleAccount.Sound.rollsUp h

end ChildAccount

namespace FeatureAccount

structure RollsUp (a : FeatureAccount) : Prop where
  node : a.passage.Gathers (a.result.children.map (·.status)) a.result.status
  listed : a.result.children = a.children.map (·.result)
  children : ∀ c ∈ a.children, c.RollsUp

theorem Sound.rollsUp {a : FeatureAccount} (h : a.Sound t e) : a.RollsUp := by
  refine ⟨?_, h.children_result, fun c hc => ?_⟩
  · cases h with
    | idle p hidle => exact Passage.gathers_skipped (List.forall_mem_map.2 p.status_skipped)
    | @visited p start passage children he hselected hvisited hplanned hinside =>
      change passage.Gathers ((children.map (·.result)).map (·.status)) _
      rw [List.map_map]
      exact hvisited.gathers
  · obtain ⟨e, around, hsound⟩ := h.child hc
    exact ChildAccount.rollsUp hsound

end FeatureAccount

namespace RunAccount

/-- The status of a run comes from its features, and is at least `error` if the run is worthless. -/
structure RollsUp (a : RunAccount) : Prop where
  node : ∃ inner, (a.result.features ≠ [] → inner.Heaviest (a.result.features.map (·.status))) ∧
    (a.result.features = [] → inner = .untested) ∧
    a.result.status = if a.fatal.isSome then inner.max .error else inner
  listed : a.result.features = a.features.map (·.result)
  features : ∀ f ∈ a.features, f.RollsUp

theorem Sound.rollsUp {b : Bool} {p : Plan} {a : RunAccount} (h : a.Sound t b p) : a.RollsUp := by
  refine ⟨?_, h.features_result, fun f hf => (h.inside f hf).rollsUp⟩
  refine ⟨.rollup (a.result.features.map (·.status)), fun hne => ?_, fun hnil => ?_, ?_⟩
  · refine Status.heaviest_rollup ?_
    rwa [Ne, List.map_eq_nil_iff]
  · rw [hnil]
    rfl
  · rw [h.result]
    rfl

end RunAccount

/-! ### Success -/

/-- The passages of the attempt that counts. -/
def ScenarioAccount.passages (a : ScenarioAccount) : List Passage := a.kept.toList.map (·.passage)

def RuleAccount.passages (a : RuleAccount) : List Passage :=
  a.passage :: a.scenarios.flatMap (·.passages)

def ChildAccount.passages : ChildAccount → List Passage
  | scenario s => s.passages
  | rule r => r.passages

def FeatureAccount.passages (a : FeatureAccount) : List Passage :=
  a.passage :: a.children.flatMap (·.passages)

/-- The passages of a run that count, those of steps excepted. -/
def RunAccount.passages (a : RunAccount) : List Passage :=
  a.passage :: a.features.flatMap (·.passages)

/-- No step that counts has a status that does not count as success, and no slot on the way has
failed. -/
def Succeeds (scenarios : List ScenarioAccount) (passages : List Passage) : Prop :=
  (∀ s ∈ scenarios, ∀ step ∈ s.result.steps, step.status.isSuccess = true) ∧
    ∀ p ∈ passages, p.Clean

theorem succeeds_flatMap {xs : List α} {f : α → List ScenarioAccount} {g : α → List Passage} :
    Succeeds (xs.flatMap f) (xs.flatMap g) ↔ ∀ x ∈ xs, Succeeds (f x) (g x) := by
  constructor
  · intro h x hx
    exact ⟨fun s hs => h.1 s (List.mem_flatMap.2 ⟨x, hx, hs⟩),
      fun p hp => h.2 p (List.mem_flatMap.2 ⟨x, hx, hp⟩)⟩
  · intro h
    refine ⟨fun s hs => ?_, fun p hp => ?_⟩
    · obtain ⟨x, hx, hs⟩ := List.mem_flatMap.1 hs
      exact (h x hx).1 s hs
    · obtain ⟨x, hx, hp⟩ := List.mem_flatMap.1 hp
      exact (h x hx).2 p hp

theorem succeeds_cons {scenarios : List ScenarioAccount} {p : Passage} {ps : List Passage} :
    Succeeds scenarios (p :: ps) ↔ Succeeds scenarios ps ∧ p.Clean := by
  unfold Succeeds
  rw [List.forall_mem_cons, and_comm (a := p.Clean), and_assoc]

theorem succeeds_scenarios (as : List ScenarioAccount) :
    Succeeds as (as.flatMap (·.passages)) ↔ ∀ s ∈ as, Succeeds [s] s.passages := by
  have h : Succeeds (as.flatMap fun s => [s]) (as.flatMap (·.passages)) ↔ _ := succeeds_flatMap
  rwa [List.flatMap_singleton'] at h

theorem ScenarioAccount.RollsUp.isSuccess {a : ScenarioAccount} (h : a.RollsUp) :
    a.result.status.isSuccess = true ↔ Succeeds [a] a.passages := by
  unfold Succeeds passages
  rw [List.forall_mem_singleton]
  by_cases hattempts : a.result.attempts = 0
  · obtain ⟨hkept, hstatus, hsteps⟩ := h.untouched hattempts
    rw [hkept, hstatus]
    refine ⟨fun _ => ⟨fun s hs => ?_, by simp⟩, fun _ => rfl⟩
    rw [hsteps s hs]
    rfl
  · obtain ⟨x, hkept, hstatus, hsteps⟩ := h.started hattempts
    have hx : x.RollsUp := h.attempts x (by simp [ScenarioAccount.attempts, hkept])
    rw [hstatus, hx.node.isSuccess, hkept, hsteps, List.forall_mem_map]
    simp

theorem RuleAccount.RollsUp.isSuccess {a : RuleAccount} (h : a.RollsUp) :
    a.result.status.isSuccess = true ↔ Succeeds a.scenarios a.passages := by
  rw [h.node.isSuccess, passages, succeeds_cons, h.listed, List.map_map, List.forall_mem_map,
    succeeds_scenarios]
  exact and_congr_left fun _ => forall₂_congr fun s hs => (h.scenarios s hs).isSuccess

theorem ChildAccount.RollsUp.isSuccess {a : ChildAccount} (h : a.RollsUp) :
    a.result.status.isSuccess = true ↔ Succeeds a.scenarios a.passages := by
  cases a with
  | scenario s => exact ScenarioAccount.RollsUp.isSuccess h
  | rule r => exact RuleAccount.RollsUp.isSuccess h

theorem FeatureAccount.RollsUp.isSuccess {a : FeatureAccount} (h : a.RollsUp) :
    a.result.status.isSuccess = true ↔ Succeeds a.scenarios a.passages := by
  rw [h.node.isSuccess, passages, succeeds_cons, h.listed, List.map_map, List.forall_mem_map,
    scenarios, succeeds_flatMap]
  exact and_congr_left fun _ => forall₂_congr fun c hc => (h.children c hc).isSuccess

namespace RunAccount

variable {b : Bool} {p : Plan} {a : RunAccount}

/-- A run is worthless if a slot around it has failed without asking that it be stopped. -/
theorem Sound.fatal_eq_none_iff (h : a.Sound t b p) : a.fatal = none ↔ a.passage.Clean := by
  rw [h.fatal, List.findSome?_eq_none_iff]
  refine forall₂_congr fun s _ => ?_
  rw [← s.isSome_fatal?, Option.isSome_eq_false_iff, Option.isNone_iff_eq_none]

/-- A run succeeds if no step that counts is undefined, erroneous or failed and no slot on the
way to them has failed. -/
theorem Sound.isSuccess (h : a.Sound t b p) :
    a.result.isSuccess = true ↔ Succeeds a.scenarios a.passages := by
  have hfeatures : (∀ s ∈ a.result.features.map (·.status), s.isSuccess = true) ↔
      Succeeds a.scenarios (a.features.flatMap (·.passages)) := by
    rw [h.features_result, List.map_map, List.forall_mem_map, scenarios, succeeds_flatMap]
    exact forall₂_congr fun f hf => (h.rollsUp.features f hf).isSuccess
  obtain ⟨inner, hheaviest, hempty, hstatus⟩ := h.rollsUp.node
  have hinner : inner.isSuccess = true ↔
      ∀ s ∈ a.result.features.map (·.status), s.isSuccess = true := by
    by_cases hnil : a.result.features = []
    · rw [hempty hnil, hnil]
      exact ⟨fun _ => by simp, fun _ => rfl⟩
    · exact (hheaviest hnil).isSuccess
  rw [passages, succeeds_cons, ← hfeatures, ← hinner, ← h.fatal_eq_none_iff, RunResult.isSuccess,
    hstatus]
  cases a.fatal with
  | none => simp
  | some error =>
    have herror : Status.error.isSuccess = false := rfl
    simp [herror]

end RunAccount

namespace Runner

variable (r : Runner W) (suite : Suite) (world : W) (cancelled : Bool)

/-- In every result of a run, statuses roll up from the steps to the run, and the run succeeds
if and only if no step that counts is undefined, erroneous or failed and no slot around it
has failed without asking that the run be stopped. -/
theorem status_rolls_up {result : RunResult}
    (h : (r.run suite world cancelled).report? = some result) :
    ∃ a : RunAccount, a.Sound (r.terms suite world cancelled) cancelled (r.options.plan suite) ∧
      a.result = result ∧ a.cues = r.cues suite world cancelled ∧ a.RollsUp ∧
      (a.fatal.isSome = true ↔ ∃ err, (r.run suite world cancelled).result = .error err) ∧
      (a.fatal = none ↔ a.passage.Clean) ∧
      (result.isSuccess = true ↔
        (∀ s ∈ result.scenarios, ∀ step ∈ s.steps,
          step.status ≠ .undefined ∧ step.status ≠ .error ∧ step.status ≠ .failed) ∧
        ∀ p ∈ a.passages, p.Clean) := by
  obtain ⟨a, ha, rfl, hcues, hfatal⟩ := r.exists_account_of_report suite world cancelled h
  refine ⟨a, ha, rfl, hcues, ha.rollsUp, hfatal, ha.fatal_eq_none_iff, ?_⟩
  rw [ha.isSuccess, Succeeds, ha.scenarios_result, List.forall_mem_map]
  exact and_congr_left fun _ => forall₂_congr fun s _ =>
    forall₂_congr fun step _ => step.status.isSuccess_iff

/-- A run in which the slot after the scenario fails. -/
theorem status_rolls_up_single :
    let r := ofHooks (Hooks.none.register .afterScenario fun _ => .done (.error "boom" false))
    let suite := Suite.single (.named "scenario")
    ∃ result, (r.run suite () false).report? = some result ∧ result.status = .error ∧
      ∃ a : RunAccount, a.result = result ∧ a.RollsUp ∧ ¬ ∀ p ∈ a.passages, p.Clean := by
  intro r suite
  have hreport : (r.run suite () false).report?.any (fun result =>
      result.status == .error && result.scenarios.all fun s => s.steps.isEmpty) = true := by decide
  obtain ⟨result, hresult, hall⟩ := (Option.any_eq_true _ _).1 hreport
  simp only [Bool.and_eq_true, beq_iff_eq, List.all_eq_true, List.isEmpty_iff] at hall
  obtain ⟨herror, hsteps⟩ := hall
  obtain ⟨a, -, hsame, -, hrolls, -, -, hsuccess⟩ := r.status_rolls_up suite () false hresult
  refine ⟨result, hresult, herror, a, hsame, hrolls, fun hclean => ?_⟩
  have hok : result.isSuccess = true := by
    refine hsuccess.2 ⟨fun s hs step hstep => ?_, hclean⟩
    rw [hsteps s hs] at hstep
    cases hstep
  rw [RunResult.isSuccess, herror] at hok
  cases hok

end Runner

end Rehearsal
