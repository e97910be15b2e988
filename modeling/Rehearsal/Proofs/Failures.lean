import Rehearsal.Proofs.RollUp

/-!
# Failures show

Whatever fails in user code is mentioned in the message of the node it was called for. It
weighs on the status of the node, and so on the run, unless a hook of the same slot asks that
the run be stopped: such a slot counts as a request to stop as a whole, and the other failures
in it leave the status alone.

A `NodeRecord` holds what was called for a node that counts, with what its result says of it.
-/

namespace Rehearsal

/-- The text, if there is one, has the other one in it. -/
def Mentions (text? : Option String) (part : String) : Prop :=
  ∃ text, text? = some text ∧ part.toList <:+: text.toList

namespace Mentions

variable {a b : Option String} {m : String}

theorem join_left (h : Mentions a m) : Mentions (joinMessages a b) m := by
  obtain ⟨text, rfl, hinfix⟩ := h
  cases b with
  | none => exact ⟨text, rfl, hinfix⟩
  | some other =>
    refine ⟨text ++ "\n" ++ other, rfl, ?_⟩
    rw [String.toList_append, String.toList_append, List.append_assoc]
    exact hinfix.trans (List.prefix_append _ _).isInfix

theorem join_right (h : Mentions b m) : Mentions (joinMessages a b) m := by
  obtain ⟨text, rfl, hinfix⟩ := h
  cases a with
  | none => exact ⟨text, rfl, hinfix⟩
  | some other =>
    refine ⟨other ++ "\n" ++ text, rfl, ?_⟩
    rw [String.toList_append]
    exact hinfix.trans (List.suffix_append _ _).isInfix

theorem or_left (h : Mentions a m) : Mentions (a.or b) m := by
  obtain ⟨text, rfl, hinfix⟩ := h
  exact ⟨text, rfl, hinfix⟩

end Mentions

/-- Every one of some texts is in their lines. -/
theorem infix_intercalate {m : String} {ms : List String} (h : m ∈ ms) :
    m.toList <:+: ("\n".intercalate ms).toList := by
  induction ms with
  | nil => cases h
  | cons first rest ih =>
    cases rest with
    | nil =>
      have hsame : "\n".intercalate [first] = m :=
        String.intercalate_singleton.trans (List.mem_singleton.1 h).symm
      exact hsame ▸ List.infix_rfl
    | cons second rest =>
      have hsplit : "\n".intercalate (first :: second :: rest) =
          first ++ "\n" ++ "\n".intercalate (second :: rest) := by
        rw [← List.singleton_append, String.intercalate_append_of_ne_nil (by simp) (by simp),
          String.intercalate_singleton]
      rw [hsplit, String.toList_append, String.toList_append]
      rcases List.mem_cons.1 h with rfl | h
      · rw [List.append_assoc]
        exact (List.prefix_append _ _).isInfix
      · exact (ih h).trans (List.suffix_append _ _).isInfix

namespace SlotCue

def failures (s : SlotCue) : List Failure := s.reply.outcomes.filterMap Outcome.failure?

theorem error?_of_failures {s : SlotCue} (h : s.failures ≠ []) :
    s.call.error? = some ⟨s.event.point, "\n".intercalate (s.failures.map (·.message)),
      s.failures.any (·.stop)⟩ := by
  unfold call Hooks.error?
  dsimp only
  rw [if_neg]
  · rfl
  · rwa [List.isEmpty_iff]

/-- A slot weighs on its node if a hook of it fails and none asks that the run be stopped. -/
theorem fails_iff (s : SlotCue) :
    s.fails = true ↔ s.failures ≠ [] ∧ ∀ f ∈ s.failures, f.stop = false := by
  by_cases hnil : s.failures = []
  · have hnone : s.call.error? = none := by
      unfold call Hooks.error?
      dsimp only
      rw [if_pos]
      rw [List.isEmpty_iff]
      exact hnil
    simp [fails, hnone, hnil]
  · rw [fails, error?_of_failures hnil]
    simp [hnil]

theorem mentions_of_failure {s : SlotCue} {f : Failure} (h : f ∈ s.failures) :
    Mentions s.message? f.message := by
  have herror := error?_of_failures (List.ne_nil_of_mem h)
  rw [message?, herror]
  refine ⟨_, rfl, ?_⟩
  rw [HookError.message, String.toList_append]
  have hmem : f.message ∈ s.failures.map (·.message) := List.mem_map_of_mem h
  exact (infix_intercalate hmem).trans (List.suffix_append _ _).isInfix

end SlotCue

/-- Whatever fails in slots is mentioned in their messages. -/
theorem HookReport.mentions_ofSlots {ss : List SlotCue} {s : SlotCue} (hs : s ∈ ss) {f : Failure}
    (hf : f ∈ s.failures) : Mentions (ofSlots ss).message? f.message := by
  obtain ⟨text, htext, hinfix⟩ := SlotCue.mentions_of_failure hf
  have hmem : text ∈ (ofSlots ss).messages := by
    rw [messages_ofSlots]
    exact List.mem_filterMap.2 ⟨s, hs, htext⟩
  have hne : (ofSlots ss).messages.isEmpty = false := by
    rw [List.isEmpty_eq_false_iff]
    exact List.ne_nil_of_mem hmem
  refine ⟨_, by rw [message?, hne]; rfl, ?_⟩
  exact hinfix.trans (infix_intercalate hmem)

/-- What was called for a node, and what its result says: the slots, the call of the
implementation if the node is a step, the statuses of what lies in the node, its message and
its status. -/
structure NodeRecord where
  slots : List SlotCue
  call : Option CallCue
  parts : List Status
  message : Option String
  status : Status

namespace NodeRecord

def cues (n : NodeRecord) : List Cue := n.slots.map .slot ++ n.call.toList.map .call

/-- Failures show in the message of the node, and its status is at least `error` exactly if a slot
weighs on it or what lies in it has such a status. -/
structure Shows (n : NodeRecord) : Prop where
  slots : ∀ s ∈ n.slots, ∀ f ∈ s.failures, Mentions n.message f.message
  call : ∀ c ∈ n.call, ∀ f, c.reply.outcome.failure? = some f →
    Mentions n.message f.message ∧ (f.stop = false → .error ≤ n.status)
  weight : .error ≤ n.status ↔ (∃ s ∈ n.slots, s.fails = true) ∨ ∃ st ∈ n.parts, .error ≤ st

end NodeRecord

/-- The heaviest of some statuses is at least `error` if one of them is. -/
theorem Status.Heaviest.error_le_iff {m : Status} {ss : List Status} (h : m.Heaviest ss) :
    .error ≤ m ↔ ∃ s ∈ ss, .error ≤ s := by
  constructor
  · intro hm
    exact ⟨m, h.mem, hm⟩
  · rintro ⟨s, hs, herror⟩
    exact Status.le_trans herror (h.le s hs)

theorem Status.not_error_le {s : Status} (h : s.isSuccess = true) : ¬ .error ≤ s := by
  cases s <;> first | decide | cases h

namespace Passage

variable {p : Passage} {inner final : Status} {parts : List Status}

theorem RollsUp.error_le_iff (h : p.RollsUp inner final) :
    .error ≤ final ↔ (∃ s ∈ p.slots, s.fails = true) ∨ .error ≤ inner := by
  rw [h.weighed, ← List.any_eq_true]
  cases p.slots.any (·.fails) with
  | true => simpa using Status.le_max_right inner .error
  | false => simp

theorem Gathers.error_le_iff (h : p.Gathers parts final) :
    .error ≤ final ↔ (∃ s ∈ p.slots, s.fails = true) ∨ ∃ st ∈ parts, .error ≤ st := by
  obtain ⟨inner, hheaviest, hempty, hrolls⟩ := h
  rw [hrolls.error_le_iff]
  by_cases hparts : parts = []
  · rw [hparts]
    simp [Status.not_error_le (hempty hparts)]
  · rw [(hheaviest hparts).error_le_iff]

theorem Gathers.shows (h : p.Gathers parts final) {message : Option String}
    (hmessage : ∀ m, Mentions (HookReport.ofSlots p.slots).message? m → Mentions message m) :
    NodeRecord.Shows ⟨p.slots, Option.none, parts, message, final⟩ where
  slots := fun _ hs _ hf => hmessage _ (HookReport.mentions_ofSlots hs hf)
  call := by simp
  weight := h.error_le_iff

end Passage

namespace StepAccount

/-- The record of a step; there is one part in it, the verdict on it. -/
def record (a : StepAccount) : NodeRecord :=
  ⟨a.passage.slots, a.call,
    match a.passage.before with
    | before :: _ => [(before.verdict a.call).status]
    | [] => [a.result.status],
    a.result.message, a.result.status⟩

end StepAccount

/-- The records of the attempt at a scenario that counts, and of its steps. -/
def ScenarioAccount.records (a : ScenarioAccount) : List NodeRecord :=
  match a.kept with
  | some x =>
    ⟨x.passage.slots, none, a.result.steps.map (·.status), a.result.message, a.result.status⟩ ::
      x.steps.map (·.record)
  | none => []

def RuleAccount.records (a : RuleAccount) : List NodeRecord :=
  ⟨a.passage.slots, none, a.result.scenarios.map (·.status), a.result.message, a.result.status⟩ ::
    a.scenarios.flatMap (·.records)

def ChildAccount.records : ChildAccount → List NodeRecord
  | scenario s => s.records
  | rule r => r.records

def FeatureAccount.records (a : FeatureAccount) : List NodeRecord :=
  ⟨a.passage.slots, none, a.result.children.map (·.status), a.result.message, a.result.status⟩ ::
    a.children.flatMap (·.records)

/-- The records of all nodes of a run that count. -/
def RunAccount.records (a : RunAccount) : List NodeRecord :=
  ⟨a.passage.slots, none, a.result.features.map (·.status), a.result.message, a.result.status⟩ ::
    a.features.flatMap (·.records)

variable {t : Terms} {e : Bool} {around : List Background}

namespace StepAccount

/-- A step for which nothing was called. -/
theorem shows_of_none {a : StepAccount} (hpassage : a.passage = .none) (hcall : a.call = none) :
    a.record.Shows := by
  rw [record, hpassage, hcall]
  refine ⟨by simp [Passage.slots, Passage.none], by simp, ?_⟩
  simp [Passage.slots, Passage.none]

theorem Started.shows {a : StepAccount} (h : a.Started t) : a.record.Shows := by
  have hrolls := h.rollsUp
  cases h with
  | faulty => exact shows_of_none rfl rfl
  | unknown => exact shows_of_none rfl rfl
  | dry => exact shows_of_none rfl rfl
  | @matched step background stopped m before after call hdry calm first opens calls own closes =>
    have hweight := (hrolls before rfl).error_le_iff
    refine ⟨fun s hs f hf => ?_, fun c hc f hf => ?_, ?_⟩
    · exact (HookReport.mentions_ofSlots hs hf).join_right
    · cases hc
      have hverdict : c.verdict.message = some f.message ∧
          (f.stop = false → c.verdict.status = .failed) := by
        unfold CallCue.verdict
        rw [hf]
        dsimp only
        split
        · rename_i hask
          refine ⟨rfl, fun hstop => ?_⟩
          rw [hstop] at hask
          cases hask
        · exact ⟨rfl, fun _ => rfl⟩
      refine ⟨Mentions.join_left ⟨_, hverdict.1, List.infix_rfl⟩, fun hstop => ?_⟩
      refine hweight.2 (.inr ?_)
      change Status.error ≤ c.verdict.status
      rw [hverdict.2 hstop]
      decide
    · rw [record, hweight]
      simp

end StepAccount

theorem AttemptAccount.Sound.shows {p : PlannedScenario} {a : AttemptAccount}
    (h : a.Sound t around p) : ∀ s ∈ a.steps, s.record.Shows := by
  intro s hs
  rcases h.started_or_idle s hs with hstart | ⟨listed, rfl⟩
  · exact hstart.shows
  · exact StepAccount.shows_of_none rfl rfl

theorem ScenarioAccount.Sound.shows {a : ScenarioAccount} (h : a.Sound t e around) :
    ∀ n ∈ a.records, n.Shows := by
  cases hkept : a.kept with
  | none => simp [records, hkept]
  | some x =>
    obtain ⟨hx, hresult⟩ := h.kept hkept
    have hgathers := hx.rollsUp.node
    rw [records, hkept, hresult]
    refine List.forall_mem_cons.2 ⟨hgathers.shows fun m hm => ?_, List.forall_mem_map.2 hx.shows⟩
    rw [hx.result]
    exact hm.or_left

theorem RuleAccount.Sound.shows {a : RuleAccount} (h : a.Sound t e around) :
    ∀ n ∈ a.records, n.Shows := by
  refine List.forall_mem_cons.2 ⟨h.rollsUp.node.shows fun m hm => ?_, ?_⟩
  · cases h with
    | idle => exact hm
    | visited => exact hm
  · intro n hn
    obtain ⟨s, hs, hn⟩ := List.mem_flatMap.1 hn
    obtain ⟨e, backgrounds, hsound⟩ := h.scenario hs
    exact hsound.shows n hn

theorem ChildAccount.shows {a : ChildAccount} (h : a.Sound t e around) :
    ∀ n ∈ a.records, n.Shows := by
  cases a with
  | scenario s => exact ScenarioAccount.Sound.shows h
  | rule r => exact RuleAccount.Sound.shows h

theorem FeatureAccount.Sound.shows {a : FeatureAccount} (h : a.Sound t e) :
    ∀ n ∈ a.records, n.Shows := by
  refine List.forall_mem_cons.2 ⟨h.rollsUp.node.shows fun m hm => ?_, ?_⟩
  · cases h with
    | idle => exact hm
    | visited => exact hm
  · intro n hn
    obtain ⟨c, hc, hn⟩ := List.mem_flatMap.1 hn
    obtain ⟨e, around, hsound⟩ := h.child hc
    exact ChildAccount.shows hsound n hn

theorem RunAccount.Sound.shows {b : Bool} {p : Plan} {a : RunAccount} (h : a.Sound t b p) :
    ∀ n ∈ a.records, n.Shows := by
  obtain ⟨inner, hheaviest, hempty, hstatus⟩ := h.rollsUp.node
  have hfatal : a.fatal.isSome = true ↔ ∃ s ∈ a.passage.slots, s.fails = true := by
    rw [h.fatal, List.isSome_findSome?, List.any_eq_true]
    exact exists_congr fun s => and_congr_right fun _ => by rw [s.isSome_fatal?]
  have hinner : .error ≤ inner ↔ ∃ st ∈ a.result.features.map (·.status), .error ≤ st := by
    by_cases hnil : a.result.features = []
    · rw [hempty hnil, hnil]
      exact ⟨fun hle => absurd hle (by decide), by simp⟩
    · exact (hheaviest hnil).error_le_iff
  refine List.forall_mem_cons.2 ⟨⟨fun s hs f hf => ?_, by simp, ?_⟩, ?_⟩
  · rw [h.result]
    exact HookReport.mentions_ofSlots hs hf
  · rw [hstatus, ← hinner, ← hfatal]
    cases a.fatal.isSome with
    | true => simpa using Status.le_max_right inner .error
    | false => simp
  · intro n hn
    obtain ⟨f, hf, hn⟩ := List.mem_flatMap.1 hn
    exact (h.inside f hf).shows n hn

/-! ### A run with a heavy record does not succeed -/

theorem ScenarioAccount.RollsUp.records_succeed {a : ScenarioAccount} (h : a.RollsUp)
    (hok : a.result.status.isSuccess = true) : ∀ n ∈ a.records, n.status.isSuccess = true := by
  cases hkept : a.kept with
  | none => simp [records, hkept]
  | some x =>
    have hattempts : a.result.attempts ≠ 0 := by
      intro hzero
      rw [(h.untouched hzero).1] at hkept
      cases hkept
    obtain ⟨x', hkept', hstatus, -⟩ := h.started hattempts
    rw [hkept, Option.some.injEq] at hkept'
    subst hkept'
    have hx : x.RollsUp := h.attempts x (by simp [ScenarioAccount.attempts, hkept])
    rw [hstatus, hx.node.isSuccess, hx.listed, List.map_map, List.forall_mem_map] at hok
    rw [records, hkept]
    refine List.forall_mem_cons.2 ⟨?_, List.forall_mem_map.2 hok.1⟩
    rw [hstatus, hx.node.isSuccess, hx.listed, List.map_map, List.forall_mem_map]
    exact hok

theorem RuleAccount.RollsUp.records_succeed {a : RuleAccount} (h : a.RollsUp)
    (hok : a.result.status.isSuccess = true) : ∀ n ∈ a.records, n.status.isSuccess = true := by
  refine List.forall_mem_cons.2 ⟨hok, fun n hn => ?_⟩
  obtain ⟨s, hs, hn⟩ := List.mem_flatMap.1 hn
  have hparts := (h.node.isSuccess.1 hok).1
  rw [h.listed, List.map_map, List.forall_mem_map] at hparts
  exact (h.scenarios s hs).records_succeed (hparts s hs) n hn

theorem ChildAccount.RollsUp.records_succeed {a : ChildAccount} (h : a.RollsUp)
    (hok : a.result.status.isSuccess = true) : ∀ n ∈ a.records, n.status.isSuccess = true := by
  cases a with
  | scenario s => exact ScenarioAccount.RollsUp.records_succeed h hok
  | rule r => exact RuleAccount.RollsUp.records_succeed h hok

theorem FeatureAccount.RollsUp.records_succeed {a : FeatureAccount} (h : a.RollsUp)
    (hok : a.result.status.isSuccess = true) : ∀ n ∈ a.records, n.status.isSuccess = true := by
  refine List.forall_mem_cons.2 ⟨hok, fun n hn => ?_⟩
  obtain ⟨c, hc, hn⟩ := List.mem_flatMap.1 hn
  have hparts := (h.node.isSuccess.1 hok).1
  rw [h.listed, List.map_map, List.forall_mem_map] at hparts
  exact ChildAccount.RollsUp.records_succeed (h.children c hc) (hparts c hc) n hn

/-- In a run that succeeds no node has a status that does not count as success. -/
theorem RunAccount.Sound.records_succeed {b : Bool} {p : Plan} {a : RunAccount}
    (h : a.Sound t b p) (hok : a.result.isSuccess = true) :
    ∀ n ∈ a.records, n.status.isSuccess = true := by
  refine List.forall_mem_cons.2 ⟨hok, fun n hn => ?_⟩
  obtain ⟨f, hf, hn⟩ := List.mem_flatMap.1 hn
  have hrolls := h.rollsUp.features f hf
  obtain ⟨hsucceeds, -⟩ := succeeds_cons.1 (h.isSuccess.1 hok)
  exact hrolls.records_succeed (hrolls.isSuccess.2 (succeeds_flatMap.1 hsucceeds f hf)) n hn

/-! ### Every call is on record -/

/-- Every cue is a start, or on record, or from an attempt that did not count. -/
def Covers (records : List NodeRecord) (discarded : List AttemptAccount) (cues : List Cue) : Prop :=
  ∀ cue ∈ cues, cue.isStart = true ∨ (∃ n ∈ records, cue ∈ n.cues) ∨ ∃ x ∈ discarded, cue ∈ x.cues

namespace Covers

variable {records : List NodeRecord} {discarded : List AttemptAccount} {cues : List Cue}

theorem mono (h : Covers records discarded cues) {records' : List NodeRecord}
    {discarded' : List AttemptAccount} (hrecords : records ⊆ records')
    (hdiscarded : discarded ⊆ discarded') : Covers records' discarded' cues := by
  intro cue hcue
  rcases h cue hcue with hstart | ⟨n, hn, hmem⟩ | ⟨x, hx, hmem⟩
  · exact .inl hstart
  · exact .inr (.inl ⟨n, hrecords hn, hmem⟩)
  · exact .inr (.inr ⟨x, hdiscarded hx, hmem⟩)

theorem append {cues' : List Cue} (h : Covers records discarded cues)
    (h' : Covers records discarded cues') : Covers records discarded (cues ++ cues') :=
  List.forall_mem_append.2 ⟨h, h'⟩

theorem start {cue : Cue} (hstart : cue.isStart = true) (h : Covers records discarded cues) :
    Covers records discarded (cue :: cues) :=
  List.forall_mem_cons.2 ⟨.inl hstart, h⟩

/-- The slots of a node are on its record. -/
theorem passage (h : Covers records discarded cues) {n : NodeRecord} {p : Passage}
    (hslots : n.slots = p.slots) : Covers (n :: records) discarded (p.around cues) := by
  intro cue hcue
  rcases Passage.mem_around.1 hcue with ⟨s, hs, rfl⟩ | hcue
  · refine .inr (.inl ⟨n, by simp, ?_⟩)
    rw [NodeRecord.cues, hslots]
    exact List.mem_append_left _ (List.mem_map_of_mem hs)
  · exact h.mono (List.subset_cons_self n records) (List.Subset.refl _) cue hcue

theorem flatMap {xs : List α} {f : α → List NodeRecord} {g : α → List AttemptAccount}
    {c : α → List Cue} (h : ∀ x ∈ xs, Covers (f x) (g x) (c x)) :
    Covers (xs.flatMap f) (xs.flatMap g) (xs.flatMap c) := by
  intro cue hcue
  obtain ⟨x, hx, hcue⟩ := List.mem_flatMap.1 hcue
  rcases h x hx cue hcue with hstart | ⟨n, hn, hmem⟩ | ⟨y, hy, hmem⟩
  · exact .inl hstart
  · exact .inr (.inl ⟨n, List.mem_flatMap.2 ⟨x, hx, hn⟩, hmem⟩)
  · exact .inr (.inr ⟨y, List.mem_flatMap.2 ⟨x, hx, hy⟩, hmem⟩)

end Covers

theorem StepAccount.covers (a : StepAccount) : Covers [a.record] [] a.cues := by
  intro cue hcue
  rcases List.mem_append.1 hcue with hcue | hcue
  · obtain ⟨f, -, rfl⟩ := List.mem_map.1 hcue
    exact .inl rfl
  · refine .inr (.inl ⟨a.record, by simp, ?_⟩)
    rcases Passage.mem_around.1 hcue with ⟨s, hs, rfl⟩ | hcall
    · exact List.mem_append_left _ (List.mem_map_of_mem hs)
    · exact List.mem_append_right _ hcall

theorem ScenarioAccount.covers (a : ScenarioAccount) : Covers a.records a.discarded a.cues := by
  have hdiscarded : Covers a.records a.discarded (a.discarded.flatMap (·.cues)) := by
    intro cue hcue
    obtain ⟨x, hx, hcue⟩ := List.mem_flatMap.1 hcue
    exact .inr (.inr ⟨x, hx, hcue⟩)
  rw [cues, attempts, List.flatMap_append]
  refine hdiscarded.append ?_
  cases hkept : a.kept with
  | none => simp [Covers]
  | some x =>
    have hsteps : Covers (x.steps.map (·.record)) a.discarded (x.steps.flatMap (·.cues)) := by
      have h : Covers (x.steps.flatMap fun s => [s.record]) (x.steps.flatMap fun _ => [])
          (x.steps.flatMap (·.cues)) := Covers.flatMap fun s _ => s.covers
      have hnone : (x.steps.flatMap fun _ => ([] : List AttemptAccount)) = [] :=
        List.flatMap_eq_nil_iff.2 fun _ _ => rfl
      rw [hnone, ← List.map_eq_flatMap] at h
      exact h.mono (List.Subset.refl _) (List.nil_subset _)
    rw [records, hkept, Option.toList_some, List.flatMap_singleton, AttemptAccount.cues]
    exact (hsteps.passage rfl).start rfl

/-- The cues of a node that may have been started. -/
theorem Covers.node {records : List NodeRecord} {discarded : List AttemptAccount}
    {cues : List Cue} (h : Covers records discarded cues) {n : NodeRecord} {p : Passage}
    (hslots : n.slots = p.slots) (start : Option EnterCue) :
    Covers (n :: records) discarded (start.toList.map .enter ++ p.around cues) := by
  cases start with
  | none => exact h.passage hslots
  | some e => exact (h.passage hslots).start rfl

theorem RuleAccount.covers (a : RuleAccount) :
    Covers a.records (a.scenarios.flatMap (·.discarded)) a.cues :=
  (Covers.flatMap fun s _ => s.covers).node rfl a.start

theorem ChildAccount.covers (a : ChildAccount) :
    Covers a.records (a.scenarios.flatMap (·.discarded)) a.cues := by
  cases a with
  | scenario s =>
    rw [scenarios, List.flatMap_singleton]
    exact s.covers
  | rule r => exact r.covers

theorem FeatureAccount.covers (a : FeatureAccount) :
    Covers a.records (a.scenarios.flatMap (·.discarded)) a.cues := by
  rw [scenarios, List.flatMap_assoc]
  exact (Covers.flatMap fun c _ => c.covers).node rfl a.start

/-- Every call of user code in a run is on the record of a node, unless it belongs to an attempt
that did not count. -/
theorem RunAccount.covers (a : RunAccount) :
    Covers a.records (a.scenarios.flatMap (·.discarded)) a.cues := by
  rw [scenarios, List.flatMap_assoc]
  exact (Covers.flatMap fun f _ => f.covers).node rfl (some a.start)

theorem ScenarioAccount.Sound.discarded_eq_nil {a : ScenarioAccount} (h : a.Sound t e around)
    (hattempts : a.result.attempts ≤ 1) : a.discarded = [] := by
  cases h with
  | idle => rfl
  | @tried p discarded kept he hselected hdiscarded hkept hbound hend =>
    have hlength : discarded.length + 1 ≤ 1 := hattempts
    change discarded = []
    exact List.eq_nil_of_length_eq_zero (by omega)

/-- In a run without second attempts all slots are on record. -/
theorem RunAccount.Sound.exists_record {b : Bool} {p : Plan} {a : RunAccount} (h : a.Sound t b p)
    (hattempts : ∀ s ∈ a.result.scenarios, s.attempts ≤ 1) {s : SlotCue}
    (hs : s ∈ a.cues.filterMap Cue.slot?) : ∃ n ∈ a.records, s ∈ n.slots := by
  obtain ⟨cue, hcue, hslot⟩ := List.mem_filterMap.1 hs
  have hs : .slot s ∈ a.cues := by
    cases cue <;> cases hslot
    exact hcue
  rcases a.covers _ hs with hstart | ⟨n, hn, hmem⟩ | ⟨x, hx, -⟩
  · cases hstart
  · refine ⟨n, hn, ?_⟩
    rcases List.mem_append.1 hmem with hmem | hmem
    · obtain ⟨s', hs', heq⟩ := List.mem_map.1 hmem
      cases heq
      exact hs'
    · obtain ⟨c, -, heq⟩ := List.mem_map.1 hmem
      cases heq
  · obtain ⟨sc, hsc, hx⟩ := List.mem_flatMap.1 hx
    obtain ⟨e, backgrounds, hsound⟩ := h.scenario hsc
    rw [h.scenarios_result, List.forall_mem_map] at hattempts
    rw [hsound.discarded_eq_nil (hattempts sc hsc)] at hx
    cases hx

/-- Every failure that does not ask for a stop makes its node at least erroneous and the run no
success. -/
def RunAccount.AllWeigh (a : RunAccount) : Prop :=
  ∀ n ∈ a.records, ∀ s ∈ n.slots, ∀ f ∈ s.failures, f.stop = false →
    .error ≤ n.status ∧ a.result.isSuccess = false

namespace Runner

variable (r : Runner W) (suite : Suite) (world : W) (cancelled : Bool)

/-- Whatever fails is mentioned in the message of its node. A failure that does not ask for a stop
makes the status of the node at least `error` and the run no success, if no hook of the same
slot asks for one; and nothing else makes a status that heavy but what lies in the node. -/
theorem failures_show {result : RunResult}
    (h : (r.run suite world cancelled).report? = some result) :
    ∃ a : RunAccount, a.Sound (r.terms suite world cancelled) cancelled (r.options.plan suite) ∧
      a.result = result ∧ a.cues = r.cues suite world cancelled ∧
      Covers a.records (a.scenarios.flatMap (·.discarded)) a.cues ∧
      ∀ n ∈ a.records,
        (∀ s ∈ n.slots, ∀ f ∈ s.failures, Mentions n.message f.message ∧
          ((∀ f' ∈ s.failures, f'.stop = false) →
            .error ≤ n.status ∧ result.isSuccess = false)) ∧
        (∀ c ∈ n.call, ∀ f, c.reply.outcome.failure? = some f → Mentions n.message f.message ∧
          (f.stop = false → .error ≤ n.status ∧ result.isSuccess = false)) ∧
        (.error ≤ n.status ↔
          (∃ s ∈ n.slots, s.failures ≠ [] ∧ ∀ f ∈ s.failures, f.stop = false) ∨
            ∃ st ∈ n.parts, .error ≤ st) := by
  obtain ⟨a, ha, rfl, hcues, -⟩ := r.exists_account_of_report suite world cancelled h
  refine ⟨a, ha, rfl, hcues, a.covers, fun n hn => ?_⟩
  have hshows := ha.shows n hn
  have hsuccess : .error ≤ n.status → a.result.isSuccess = false := by
    intro herror
    rw [Bool.eq_false_iff]
    exact fun hok => Status.not_error_le (ha.records_succeed hok n hn) herror
  refine ⟨fun s hs f hf => ⟨hshows.slots s hs f hf, fun hall => ?_⟩, fun c hc f hf => ?_, ?_⟩
  · have hfails : s.fails = true := s.fails_iff.2 ⟨List.ne_nil_of_mem hf, hall⟩
    have herror := hshows.weight.2 (.inl ⟨s, hs, hfails⟩)
    exact ⟨herror, hsuccess herror⟩
  · obtain ⟨hmentions, hstatus⟩ := hshows.call c hc f hf
    exact ⟨hmentions, fun hstop => ⟨hstatus hstop, hsuccess (hstatus hstop)⟩⟩
  · rw [hshows.weight]
    exact or_congr_left (exists_congr fun s => and_congr_right fun _ => s.fails_iff)

/-- A run in which a hook fails after the scenario. -/
theorem failures_show_single :
    let r := ofHooks (Hooks.none.register .afterScenario fun _ => .done (.error "boom" false))
    let suite := Suite.single (.named "scenario")
    ∃ result, (r.run suite () false).report? = some result ∧ result.isSuccess = false ∧
      ∃ a : RunAccount, a.result = result ∧ ∃ n ∈ a.records, Mentions n.message "boom" := by
  intro r suite
  have hreport : (r.run suite () false).report?.any
      (fun result => result.scenarios.all fun s => s.attempts ≤ 1) = true := by decide
  have hslot : ∃ s ∈ (r.cues suite () false).filterMap Cue.slot?,
      s.failures = [⟨"boom", false⟩] := by decide
  obtain ⟨result, hresult, hattempts⟩ := (Option.any_eq_true _ _).1 hreport
  simp only [List.all_eq_true, decide_eq_true_eq] at hattempts
  obtain ⟨a, ha, rfl, hcues, -, hshows⟩ := r.failures_show suite () false hresult
  rw [← hcues] at hslot
  obtain ⟨s, hs, hfailures⟩ := hslot
  obtain ⟨n, hn, hs⟩ := ha.exists_record hattempts hs
  obtain ⟨hslots, -, -⟩ := hshows n hn
  obtain ⟨hmentions, hweight⟩ := hslots s hs ⟨"boom", false⟩ (by simp [hfailures])
  exact ⟨a.result, hresult, (hweight (by simp [hfailures])).2, a, rfl, n, hn, hmentions⟩

/-- A hook that asks for a stop hides the failure of another hook of the same slot: the failure is
in no status, and the run succeeds. -/
theorem mixed_slot_hides_failure :
    let r := ofHooks ((Hooks.none.register .afterScenario fun _ =>
      .done (.error "boom" false)).register .afterScenario fun _ => .done (.error "enough" true))
    let suite := Suite.single (.named "scenario")
    ∃ a : RunAccount, a.Sound (r.terms suite () false) false (r.options.plan suite) ∧
      (r.run suite () false).report? = some a.result ∧ a.cues = r.cues suite () false ∧
      a.result.isSuccess = true ∧ ¬ a.AllWeigh := by
  intro r suite
  have hreport : (r.run suite () false).report?.any (fun result =>
      result.isSuccess && result.scenarios.all fun s => s.attempts ≤ 1) = true := by decide
  have hslot : ∃ s ∈ (r.cues suite () false).filterMap Cue.slot?,
      (⟨"boom", false⟩ : Failure) ∈ s.failures := by decide
  obtain ⟨result, hresult, hall⟩ := (Option.any_eq_true _ _).1 hreport
  simp only [Bool.and_eq_true, List.all_eq_true, decide_eq_true_eq] at hall
  obtain ⟨hok, hattempts⟩ := hall
  obtain ⟨a, ha, rfl, hcues, -⟩ := r.exists_account_of_report suite () false hresult
  refine ⟨a, ha, hresult, hcues, hok, fun hall => ?_⟩
  rw [← hcues] at hslot
  obtain ⟨s, hs, hf⟩ := hslot
  obtain ⟨n, hn, hs⟩ := ha.exists_record hattempts hs
  rw [(hall n hn s hs _ hf rfl).2] at hok
  cases hok

end Runner

end Rehearsal
