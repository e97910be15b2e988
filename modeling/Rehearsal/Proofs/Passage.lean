import Rehearsal.Proofs.Course

/-!
# Passages through nodes

A passage holds the slots called on entering a node and those called on leaving it.
`Passage.Crosses` says how the two belong together: the entry goes through the tags of the
node and then the node itself, and stops at the first slot that fails; the exit closes what
the entry has opened, the latest first.

The work that enters and leaves nodes is opened here only. Everything later goes through
`course_slot`, `course_enterNode` and `course_exitNode`.
-/

namespace Rehearsal

namespace SlotCue

def call (s : SlotCue) : SlotCall :=
  ⟨Hooks.error? s.event.point s.reply.outcomes, s.reply.captured⟩

def isOk (s : SlotCue) : Bool := s.call.isOk

/-- Has the slot failed without asking that the run be stopped? -/
def fails (s : SlotCue) : Bool := s.call.error?.any fun e => !e.stop

def asksStop (s : SlotCue) : Bool := s.call.error?.any fun e => e.stop

def message? (s : SlotCue) : Option String := s.call.error?.map HookError.message

theorem isOk_eq_false_iff (s : SlotCue) :
    s.isOk = false ↔ s.fails = true ∨ s.asksStop = true := by
  unfold isOk fails asksStop SlotCall.isOk
  cases s.call.error? with
  | none => simp
  | some e => cases e.stop <;> simp

theorem isSome_fatal? (s : SlotCue) : s.call.fatal?.isSome = s.fails := by
  unfold SlotCall.fatal? fails
  cases s.call.error? with
  | none => rfl
  | some e => cases h : e.stop <;> simp [h]

theorem fatal?_eq_none (s : SlotCue) (h : s.isOk = true) : s.call.fatal? = none := by
  unfold isOk SlotCall.isOk at h
  rw [Option.isNone_iff_eq_none] at h
  rw [SlotCall.fatal?, h]
  rfl

end SlotCue

namespace HookReport

def addAll (r : HookReport) (ss : List SlotCue) : HookReport :=
  ss.foldl (fun r s => r.add s.call) r

/-- What some slots have come to together. -/
def ofSlots (ss : List SlotCue) : HookReport := empty.addAll ss

@[simp] theorem addAll_nil (r : HookReport) : r.addAll [] = r := rfl

theorem addAll_cons (r : HookReport) (s : SlotCue) (ss : List SlotCue) :
    r.addAll (s :: ss) = (r.add s.call).addAll ss := rfl

theorem addAll_append (r : HookReport) (first second : List SlotCue) :
    r.addAll (first ++ second) = (r.addAll first).addAll second :=
  List.foldl_append

theorem addAll_ofSlots (first second : List SlotCue) :
    (ofSlots first).addAll second = ofSlots (first ++ second) :=
  (addAll_append empty first second).symm

@[simp] theorem failed_add (r : HookReport) (s : SlotCue) :
    (r.add s.call).failed = (r.failed || s.fails) := by
  unfold add SlotCue.fails
  cases s.call.error? with
  | none => simp
  | some e => simp

@[simp] theorem messages_add (r : HookReport) (s : SlotCue) :
    (r.add s.call).messages = r.messages ++ s.message?.toList := by
  unfold add SlotCue.message?
  cases s.call.error? with
  | none => simp
  | some e => simp

theorem captured_add (r : HookReport) (c : SlotCall) :
    (r.add c).captured = r.captured ++ c.captured := by
  unfold add
  split <;> rfl

@[simp] theorem add_ok (r : HookReport) : r.add ⟨none, .empty⟩ = r := by
  simp [add]

theorem failed_addAll (r : HookReport) (ss : List SlotCue) :
    (r.addAll ss).failed = (r.failed || ss.any (·.fails)) := by
  induction ss generalizing r with
  | nil => simp
  | cons s ss ih => rw [addAll_cons, ih, failed_add, List.any_cons, Bool.or_assoc]

theorem messages_addAll (r : HookReport) (ss : List SlotCue) :
    (r.addAll ss).messages = r.messages ++ ss.filterMap (·.message?) := by
  induction ss generalizing r with
  | nil => simp
  | cons s ss ih =>
    rw [addAll_cons, ih, messages_add]
    cases h : s.message? <;> simp [h]

/-- Slots weigh on a node as soon as one of them fails without asking for a stop. -/
theorem failed_ofSlots (ss : List SlotCue) : (ofSlots ss).failed = ss.any (·.fails) := by
  rw [ofSlots, failed_addAll]
  rfl

theorem messages_ofSlots (ss : List SlotCue) :
    (ofSlots ss).messages = ss.filterMap (·.message?) := by
  rw [ofSlots, messages_addAll]
  rfl

theorem captured_addAll (r : HookReport) (ss : List SlotCue) :
    (r.addAll ss).captured = r.captured ++ (ofSlots ss).captured := by
  induction ss generalizing r with
  | nil => simp [ofSlots, empty]
  | cons s ss ih =>
    have hfirst : (ofSlots (s :: ss)).captured = s.call.captured ++ (ofSlots ss).captured := by
      rw [ofSlots, addAll_cons, ih, captured_add]
      simp [empty]
    rw [addAll_cons, ih, captured_add, hfirst, Captured.append_assoc]

theorem captured_ofSlots_append (ss ss' : List SlotCue) :
    (ofSlots (ss ++ ss')).captured = (ofSlots ss).captured ++ (ofSlots ss').captured := by
  rw [← addAll_ofSlots, captured_addAll]

theorem message?_ofSlots_append (ss ss' : List SlotCue) :
    (ofSlots (ss ++ ss')).message? = joinMessages (ofSlots ss).message? (ofSlots ss').message? := by
  unfold message?
  rw [messages_ofSlots, messages_ofSlots, messages_ofSlots, List.filterMap_append]
  generalize ss.filterMap (·.message?) = ms
  generalize ss'.filterMap (·.message?) = ms'
  cases ms with
  | nil => simp [joinMessages]
  | cons m ms =>
    cases ms' with
    | nil => simp [joinMessages]
    | cons m' ms' =>
      rw [String.intercalate_append_of_ne_nil (List.cons_ne_nil m ms) (List.cons_ne_nil m' ms')]
      rfl

end HookReport

namespace HookScope

def tags : HookScope → List Tag
  | feature f => f.tags.tags
  | rule r => r.tags.tags
  | scenario s => s.tags.tags
  | _ => []

def before : HookScope → HookPoint
  | suite => .beforeAll
  | feature _ => .beforeFeature
  | rule _ => .beforeRule
  | scenario _ => .beforeScenario
  | step _ => .beforeStep
  | tag _ => .beforeTag

end HookScope

/-- The point after what the point comes before. -/
def HookPoint.closing : HookPoint → HookPoint
  | beforeAll => afterAll
  | beforeFeature => afterFeature
  | beforeRule => afterRule
  | beforeScenario => afterScenario
  | beforeStep => afterStep
  | beforeTag => afterTag
  | p => p

namespace HookEvent

def ofTag (tag : Tag) : HookEvent := ⟨.beforeTag, .tag tag.name, none⟩

/-- The event that closes what the event opens, for a node with the status. -/
def closing (e : HookEvent) (status : Status) : HookEvent :=
  ⟨e.point.closing, e.scope, some status⟩

end HookEvent

namespace RunOptions

/-- The events that are called; a dry run calls none. -/
def called (o : RunOptions) (es : List HookEvent) : List HookEvent := if o.dryRun then [] else es

/-- The events of the slots to be called on entering a node. -/
def entry (o : RunOptions) (n : HookScope) : List HookEvent :=
  o.called (n.tags.map HookEvent.ofTag ++ [⟨n.before, n, none⟩])

theorem called_append (o : RunOptions) (es es' : List HookEvent) :
    o.called (es ++ es') = o.called es ++ o.called es' := by
  unfold called
  split <;> simp

@[simp] theorem called_nil (o : RunOptions) : o.called [] = [] := by
  simp [called]

theorem eq_of_mem_entry {o : RunOptions} {n : HookScope} {e : HookEvent} (h : e ∈ o.entry n) :
    (∃ tag, e = .ofTag tag) ∨ e = ⟨n.before, n, none⟩ := by
  unfold entry called at h
  split at h
  · cases h
  · rcases List.mem_append.1 h with h | h
    · obtain ⟨tag, -, rfl⟩ := List.mem_map.1 h
      exact .inl ⟨tag, rfl⟩
    · exact .inr (List.mem_singleton.1 h)

end RunOptions

/-- The slots called for a node: on entering it and on leaving it. -/
structure Passage where
  before : List SlotCue
  after : List SlotCue

namespace Passage

def none : Passage := ⟨[], []⟩

def slots (p : Passage) : List SlotCue := p.before ++ p.after

/-- Have all slots on entering succeeded? -/
def proceeds (p : Passage) : Bool := p.before.all (·.isOk)

def around (p : Passage) (inside : List Cue) : List Cue :=
  p.before.map .slot ++ inside ++ p.after.map .slot

theorem mem_around {p : Passage} {inside : List Cue} {cue : Cue} :
    cue ∈ p.around inside ↔ (∃ s ∈ p.slots, cue = .slot s) ∨ cue ∈ inside := by
  constructor
  · intro h
    rcases List.mem_append.1 h with h | h
    · rcases List.mem_append.1 h with h | h
      · obtain ⟨s, hs, rfl⟩ := List.mem_map.1 h
        exact .inl ⟨s, List.mem_append_left _ hs, rfl⟩
      · exact .inr h
    · obtain ⟨s, hs, rfl⟩ := List.mem_map.1 h
      exact .inl ⟨s, List.mem_append_right _ hs, rfl⟩
  · rintro (⟨s, hs, rfl⟩ | h)
    · rcases List.mem_append.1 hs with hs | hs
      · exact List.mem_append_left _ (List.mem_append_left _ (List.mem_map_of_mem hs))
      · exact List.mem_append_right _ (List.mem_map_of_mem hs)
    · exact List.mem_append_left _ (List.mem_append_right _ h)

theorem find_mem_around {p : Passage} {inside : List Cue} {f : FindCue} :
    .find f ∈ p.around inside ↔ .find f ∈ inside := by
  simp [mem_around]

theorem sublist_around (p : Passage) (inside : List Cue) : inside.Sublist (p.around inside) :=
  (List.sublist_append_right _ _).trans (List.sublist_append_left _ _)

/-- The passage is one through the node, which has the status on leaving. -/
structure Crosses (o : RunOptions) (n : HookScope) (status : Status) (p : Passage) : Prop where
  entry : p.before.map (·.event) <+: o.entry n
  /-- Only the last slot on entering may have failed. -/
  steady : ∀ s ∈ p.before.dropLast, s.isOk = true
  complete : p.proceeds = true → p.before.map (·.event) = o.entry n
  exit : p.after.map (·.event) = (p.before.map (·.event.closing status)).reverse

end Passage

/-- Every slot on leaving closes one on entering. -/
theorem Passage.Crosses.exists_closing {o : RunOptions} {n : HookScope} {status : Status}
    {p : Passage} (h : p.Crosses o n status) {s : SlotCue} (hs : s ∈ p.after) :
    ∃ s' ∈ p.before, s'.event.closing status = s.event := by
  have hmem := List.mem_map_of_mem (f := fun s : SlotCue => s.event) hs
  rw [h.exit, List.mem_reverse] at hmem
  exact List.mem_map.1 hmem

/-- The two slots of a step make up a passage. -/
theorem Passage.crosses_step {o : RunOptions} (hdry : o.dryRun = false) {step : Step}
    {status : Status} {before after : SlotCue}
    (hopens : before.event = ⟨.beforeStep, .step step, .none⟩)
    (hcloses : after.event = ⟨.afterStep, .step step, some status⟩) :
    Passage.Crosses o (.step step) status ⟨[before], [after]⟩ := by
  have hentry : o.entry (.step step) = [before.event] := by
    rw [hopens, RunOptions.entry, RunOptions.called, hdry]
    rfl
  refine ⟨?_, by simp, fun _ => hentry.symm, ?_⟩
  · rw [hentry]
    exact List.prefix_rfl
  · rw [List.map_singleton, List.map_singleton, hcloses, hopens]
    rfl

/-- The events that close, the latest first, what an entry has opened. -/
def NodeEntry.exits (o : RunOptions) (n : HookScope) (status : Status) (e : NodeEntry) :
    List HookEvent :=
  o.called ((if e.reached then [⟨n.before.closing, n, some status⟩] else []) ++
    e.tags.map fun name => ⟨.afterTag, .tag name, some status⟩)

namespace Work

variable {o : RunOptions} {k : Company} {b c : Bool} {cues : List Cue}

/-- A dry run calls no slot; another run calls it once, and stops if the slot asks for it. -/
theorem course_slot {point : HookPoint} {scope : HookScope} {status : Option Status}
    {call : SlotCall} (h : (o.slot point scope status).Course k b cues call c) :
    (o.dryRun = true ∧ cues = [] ∧ call = ⟨none, .empty⟩ ∧ c = b) ∨
      (o.dryRun = false ∧ ∃ s : SlotCue, cues = [.slot s] ∧ s.event = ⟨point, scope, status⟩ ∧
        call = s.call ∧ k.Lets b s.stopped ∧ (s.asksStop = true → c = true)) := by
  unfold RunOptions.slot at h
  cases hdry : o.dryRun with
  | true =>
    rw [hdry, if_pos rfl] at h
    obtain ⟨rfl, rfl, rfl⟩ := course_done.1 h
    exact .inl ⟨rfl, rfl, rfl, rfl⟩
  | false =>
    rw [hdry, if_neg Bool.false_ne_true] at h
    obtain ⟨first, reply, b₁, second, rfl, h₁, h₂⟩ := course_bind.1 h
    obtain ⟨b₀, hlet, -, rfl⟩ := course_request.1 h₁
    let s : SlotCue := ⟨⟨point, scope, status⟩, reply, b₀⟩
    suffices hrest : second = [] ∧ call = s.call ∧ (s.asksStop = true → c = true) by
      obtain ⟨rfl, hcall, hstop⟩ := hrest
      exact .inr ⟨rfl, s, rfl, rfl, hcall, hlet, hstop⟩
    unfold SlotCue.asksStop SlotCue.call
    dsimp only [s]
    cases herror : Hooks.error? point reply.outcomes with
    | none =>
      rw [herror] at h₂
      obtain ⟨rfl, rfl, rfl⟩ := course_done.1 h₂
      exact ⟨rfl, rfl, by simp⟩
    | some e =>
      rw [herror] at h₂
      dsimp only at h₂
      split at h₂
      · obtain ⟨stop, _, b₂, rest, rfl, h₃, h₄⟩ := course_bind.1 h₂
        obtain ⟨_, -, hstop, rfl⟩ := course_request.1 h₃
        obtain ⟨rfl, rfl, rfl⟩ := course_done.1 h₄
        exact ⟨rfl, rfl, fun _ => hstop⟩
      · rename_i hask
        obtain ⟨rfl, rfl, rfl⟩ := course_done.1 h₂
        exact ⟨rfl, rfl, by simp [hask]⟩

/-- The slots `ss` are those called when the ones of the events are called in order until one
fails. -/
structure Enters (o : RunOptions) (k : Company) (b : Bool) (es : List HookEvent)
    (ss : List SlotCue) (c : Bool) : Prop where
  entry : ss.map (·.event) <+: o.called es
  steady : ∀ s ∈ ss.dropLast, s.isOk = true
  complete : ss.all (·.isOk) = true → ss.map (·.event) = o.called es
  first : ∀ s, ss.head? = some s → k.Lets b s.stopped
  idle : ss = [] → c = b
  stops : ∀ s ∈ ss, s.asksStop = true → c = true

namespace Enters

variable {es es' : List HookEvent} {ss ss' : List SlotCue} {b' : Bool}

theorem nil : Enters o k b [] [] b := by
  constructor <;> simp

/-- After slots that have all succeeded come the following ones. -/
theorem append (h : Enters o k b es ss b') (hok : ss.all (·.isOk) = true)
    (h' : Enters o k b' es' ss' c) : Enters o k b (es ++ es') (ss ++ ss') c where
  entry := by
    rw [List.map_append, RunOptions.called_append, h.complete hok]
    exact (List.prefix_append_right_inj _).2 h'.entry
  steady := by
    intro s hs
    cases ss' with
    | nil => exact h.steady s (by simpa using hs)
    | cons s' rest =>
      rw [List.dropLast_append_of_ne_nil (List.cons_ne_nil s' rest)] at hs
      rcases List.mem_append.1 hs with hs | hs
      · exact List.all_eq_true.1 hok s hs
      · exact h'.steady s hs
  complete := by
    intro hall
    rw [List.all_append, Bool.and_eq_true] at hall
    rw [List.map_append, RunOptions.called_append, h.complete hok, h'.complete hall.2]
  first := by
    intro s hs
    cases ss with
    | nil =>
      rw [← h.idle rfl]
      exact h'.first s hs
    | cons s' rest => exact h.first s hs
  idle := by
    intro hnil
    obtain ⟨rfl, rfl⟩ := List.append_eq_nil_iff.1 hnil
    exact (h'.idle rfl).trans (h.idle rfl)
  stops := by
    intro s hs hask
    rcases List.mem_append.1 hs with hs | hs
    · have hfalse := s.isOk_eq_false_iff.2 (.inr hask)
      rw [List.all_eq_true.1 hok s hs] at hfalse
      cases hfalse
    · exact h'.stops s hs hask

/-- After a slot that has failed come no others. -/
theorem cut (h : Enters o k b es ss c) (hfail : ss.all (·.isOk) = false) :
    Enters o k b (es ++ es') ss c where
  entry := by
    rw [RunOptions.called_append]
    exact h.entry.trans (List.prefix_append _ _)
  steady := h.steady
  complete := by
    intro hall
    rw [hfail] at hall
    cases hall
  first := h.first
  idle := h.idle
  stops := h.stops

end Enters

/-- A single slot enters by its own event. -/
theorem course_slot_enters {point : HookPoint} {scope : HookScope} {status : Option Status}
    {call : SlotCall} (h : (o.slot point scope status).Course k b cues call c) :
    ∃ ss : List SlotCue, cues = ss.map .slot ∧ Enters o k b [⟨point, scope, status⟩] ss c ∧
      ss.map (·.event) = o.called [⟨point, scope, status⟩] ∧
      (∀ r : HookReport, r.add call = r.addAll ss) ∧ call.isOk = ss.all (·.isOk) ∧
      call.fatal? = ss.findSome? fun s => s.call.fatal? := by
  rcases course_slot h with ⟨hdry, rfl, rfl, rfl⟩ | ⟨hdry, s, rfl, hevent, rfl, hlet, hstop⟩
  · have hcalled : o.called [⟨point, scope, status⟩] = [] := by simp [RunOptions.called, hdry]
    refine ⟨[], rfl, ?_, hcalled.symm, fun r => by simp, rfl, rfl⟩
    constructor <;> simp [hcalled]
  · have hcalled : o.called [⟨point, scope, status⟩] = [s.event] := by
      simp [RunOptions.called, hdry, hevent]
    refine ⟨[s], rfl, ?_, hcalled.symm, fun r => rfl, by simp [SlotCue.isOk], by simp⟩
    constructor <;> simp [hcalled, hlet]
    exact hstop

/-- A slot that was called obliges to the exit that closes its event. -/
theorem reverse_map_closing {ss : List SlotCue} {e : HookEvent}
    (h : ss.map (·.event) = o.called [e]) (status : Status) :
    (ss.map (·.event.closing status)).reverse = o.called [e.closing status] := by
  have hmap : ss.map (·.event.closing status) = (o.called [e]).map (·.closing status) := by
    rw [← h, List.map_map]
    rfl
  rw [hmap]
  unfold RunOptions.called
  split <;> rfl

theorem course_enterTags {ts : List Tag} {e e' : NodeEntry} (he : e.proceeds = true)
    (hreached : e.reached = false) (h : (o.enterTags e ts).Course k b cues e' c) :
    ∃ ss : List SlotCue, cues = ss.map .slot ∧ Enters o k b (ts.map HookEvent.ofTag) ss c ∧
      e'.report = e.report.addAll ss ∧ e'.proceeds = ss.all (·.isOk) ∧ e'.reached = false ∧
      ∀ n status, e'.exits o n status =
        (ss.map (·.event.closing status)).reverse ++ e.exits o n status := by
  induction ts generalizing e b cues with
  | nil =>
    obtain ⟨rfl, rfl, rfl⟩ := course_done.1 h
    exact ⟨[], rfl, .nil, rfl, he, hreached, by simp⟩
  | cons tag rest ih =>
    obtain ⟨first, call, b', second, rfl, h₁, h₂⟩ := course_bind.1 h
    obtain ⟨ss, rfl, henters, hevents, hadd, hok, -⟩ := course_slot_enters h₁
    -- the exit of the tag is put in front of those of the tags before it
    have hexits : ∀ n status, NodeEntry.exits o n status
          ⟨e.report.add call, tag.name :: e.tags, false, call.isOk⟩ =
        (ss.map (·.event.closing status)).reverse ++ e.exits o n status := by
      intro n status
      rw [reverse_map_closing hevents status, NodeEntry.exits, NodeEntry.exits, hreached,
        ← o.called_append]
      rfl
    dsimp only at h₂
    split at h₂
    · rename_i hcall
      obtain ⟨ss', rfl, henters', hreport, hproceeds, hreached', hexits'⟩ := ih hcall rfl h₂
      rw [hok] at hcall
      refine ⟨ss ++ ss', by simp, henters.append hcall henters', ?_, ?_, hreached', ?_⟩
      · rw [hreport, hadd, HookReport.addAll_append]
      · rw [hproceeds, List.all_append, hcall, Bool.true_and]
      · intro n status
        rw [hexits', hexits, List.map_append, List.reverse_append, List.append_assoc]
    · rename_i hcall
      obtain ⟨rfl, rfl, rfl⟩ := course_done.1 h₂
      rw [hok, Bool.not_eq_true] at hcall
      exact ⟨ss, by simp, henters.cut hcall, hadd _, hok, rfl, hexits⟩

/-- On entering a node, slots are called until one fails; the entry remembers which exits
they oblige to. -/
theorem course_enterNode (n : HookScope) {tags : TagSet} (htags : tags.tags = n.tags)
    {e : NodeEntry} (h : (o.enterNode tags n.before n).Course k b cues e c) :
    ∃ ss : List SlotCue, cues = ss.map .slot ∧
      Enters o k b (n.tags.map HookEvent.ofTag ++ [⟨n.before, n, none⟩]) ss c ∧
      e.report = .ofSlots ss ∧ e.proceeds = ss.all (·.isOk) ∧
      ∀ status, e.exits o n status = (ss.map (·.event.closing status)).reverse := by
  obtain ⟨first, e₁, b', second, rfl, h₁, h₂⟩ := course_bind.1 h
  rw [htags] at h₁
  obtain ⟨ss, rfl, henters, hreport, hproceeds, hreached, hexits⟩ := course_enterTags rfl rfl h₁
  have hstart : ∀ status, NodeEntry.start.exits o n status = [] := fun status => o.called_nil
  split at h₂
  · rename_i hok
    obtain ⟨third, call, b'', fourth, rfl, h₃, h₄⟩ := course_bind.1 h₂
    obtain ⟨rfl, rfl, rfl⟩ := course_done.1 h₄
    obtain ⟨ss', rfl, henters', hevents, hadd, hcall, -⟩ := course_slot_enters h₃
    rw [hproceeds] at hok
    refine ⟨ss ++ ss', by simp, henters.append hok henters', ?_, ?_, ?_⟩
    · change e₁.report.add call = .ofSlots (ss ++ ss')
      rw [hadd, hreport, HookReport.ofSlots, HookReport.addAll_append]
      rfl
    · rw [hcall, List.all_append, hok, Bool.true_and]
    · intro status
      have hrest := hexits n status
      rw [hstart, List.append_nil, NodeEntry.exits, hreached] at hrest
      rw [List.map_append, List.reverse_append, reverse_map_closing hevents status, ← hrest,
        NodeEntry.exits, ← o.called_append]
      rfl
  · rename_i hok
    obtain ⟨rfl, rfl, rfl⟩ := course_done.1 h₂
    rw [hproceeds, Bool.not_eq_true] at hok
    refine ⟨ss, by simp, henters.cut hok, hreport, hproceeds, ?_⟩
    intro status
    rw [hexits, hstart, List.append_nil]

theorem course_exitTags {status : Status} {names : List String} {r r' : HookReport}
    (h : (o.exitTags status r names).Course k b cues r' c) :
    ∃ ss : List SlotCue, cues = ss.map .slot ∧
      ss.map (·.event) = o.called (names.map fun name => ⟨.afterTag, .tag name, some status⟩) ∧
      r' = r.addAll ss := by
  induction names generalizing r b cues with
  | nil =>
    obtain ⟨rfl, rfl, rfl⟩ := course_done.1 h
    exact ⟨[], rfl, o.called_nil.symm, rfl⟩
  | cons name rest ih =>
    obtain ⟨first, call, b', second, rfl, h₁, h₂⟩ := course_bind.1 h
    obtain ⟨ss, rfl, -, hevents, hadd, -⟩ := course_slot_enters h₁
    obtain ⟨ss', rfl, hevents', rfl⟩ := ih h₂
    refine ⟨ss ++ ss', by simp, ?_, ?_⟩
    · rw [List.map_append, hevents, hevents', ← o.called_append]
      rfl
    · rw [hadd, HookReport.addAll_append]

/-- On leaving a node, all slots that the entry obliges to are called, whatever fails. -/
theorem course_exitNode (n : HookScope) {status : Status} {e : NodeEntry} {r : HookReport}
    (h : (o.exitNode e n.before.closing n status).Course k b cues r c) :
    ∃ ss : List SlotCue, cues = ss.map .slot ∧ ss.map (·.event) = e.exits o n status ∧
      r = e.report.addAll ss := by
  unfold RunOptions.exitNode at h
  split at h
  · rename_i hreached
    obtain ⟨first, call, b', second, rfl, h₁, h₂⟩ := course_bind.1 h
    obtain ⟨ss, rfl, -, hevents, hadd, -⟩ := course_slot_enters h₁
    obtain ⟨ss', rfl, hevents', rfl⟩ := course_exitTags h₂
    refine ⟨ss ++ ss', by simp, ?_, ?_⟩
    · rw [List.map_append, hevents, hevents', NodeEntry.exits, if_pos hreached, o.called_append]
    · rw [hadd, HookReport.addAll_append]
  · rename_i hreached
    obtain ⟨ss, rfl, hevents, rfl⟩ := course_exitTags h
    refine ⟨ss, rfl, ?_, rfl⟩
    rw [hevents, NodeEntry.exits, if_neg hreached, List.nil_append]

/-- The slots of an entry and of the exit it obliges to make up a passage through the node. -/
theorem Enters.crosses {n : HookScope} {status : Status} {before after : List SlotCue}
    (h : Enters o k b (n.tags.map HookEvent.ofTag ++ [⟨n.before, n, none⟩]) before c)
    (hexit : after.map (·.event) = (before.map (·.event.closing status)).reverse) :
    Passage.Crosses o n status ⟨before, after⟩ where
  entry := h.entry
  steady := h.steady
  complete := h.complete
  exit := hexit

end Work

end Rehearsal
