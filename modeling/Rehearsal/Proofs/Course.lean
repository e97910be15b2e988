import Rehearsal.Run

/-!
# Courses of work

A cue is a moment of a run that shows from outside: a node or a step is started, or user
code is called. `Work.Course k w b cues a c` says that the work `w` may be done with the
result `a` while the wish to stop the run goes from `b` to `c`, and that these are its cues.
Replies of user code are arbitrary here; replies about the wish to stop are true to it.

The wish to stop is the only thing that comes from beside the work, so the relation carries
it explicitly. Work that is done `alone` sees it change by calls and by its own requests
only; work that is done beside `others` may find the run stopped at any request.

`Runner.course` binds the relation to `Runner.perform`: whatever a runner does on a stage is
a course, and its cues are those among the deeds that the stage has on record.
-/

namespace Rehearsal

/-- Is there other work at the same time, which may stop the run? -/
inductive Company where
  | alone
  | others
  deriving DecidableEq, Repr

/-- How the wish to stop may change between two requests. -/
def Company.Lets : Company → Bool → Bool → Prop
  | alone, b, c => c = b
  | others, b, c => b = true → c = true

theorem Company.Lets.refl (k : Company) (b : Bool) : k.Lets b b := by
  cases k with
  | alone => exact rfl
  | others => exact id

theorem Company.Lets.rises {k : Company} {b c : Bool} (h : k.Lets b c) (hb : b = true) :
    c = true := by
  cases k with
  | alone => exact Eq.trans h hb
  | others => exact h hb

theorem Company.Lets.trans {k : Company} {b c d : Bool} (h : k.Lets b c) (h' : k.Lets c d) :
    k.Lets b d := by
  cases k with
  | alone => exact Eq.trans h' h
  | others => exact fun hb => h' (h hb)

/-- The start of a node; `stopped` tells whether the run was to stop at that moment. -/
structure EnterCue where
  level : ScopeLevel
  values : List (String × Datum)
  stopped : Bool

/-- The start of a step, with what was found for it. -/
structure FindCue where
  step : Step
  found : Except MatchError (Option StepMatch)
  stopped : Bool

structure SlotCue where
  event : HookEvent
  reply : SlotReply
  stopped : Bool

structure CallCue where
  found : StepMatch
  step : Step
  reply : CallReply
  stopped : Bool

/-- A moment of a run that shows from outside. -/
inductive Cue where
  | enter (e : EnterCue)
  | find (f : FindCue)
  | slot (s : SlotCue)
  | call (c : CallCue)

namespace Cue

def stopped : Cue → Bool
  | enter e => e.stopped
  | find f => f.stopped
  | slot s => s.stopped
  | call c => c.stopped

def slot? : Cue → Option SlotCue
  | slot s => some s
  | _ => none

def isStart : Cue → Bool
  | enter _ | find _ => true
  | _ => false

end Cue

/-- The cue that a request gives; `b` tells whether the run is to stop. -/
def Request.cue? : (q : Request) → Bool → q.Reply → Option Cue
  | .enter level values, b, _ => some (.enter ⟨level, values, b⟩)
  | .find step, b, reply => some (.find ⟨step, reply, b⟩)
  | .hooks event, b, reply => some (.slot ⟨event, reply, b⟩)
  | .call m step, b, reply => some (.call ⟨m, step, reply, b⟩)
  | _, _, _ => none

/-- How the reply to a request depends on the wish to stop, and how the request may change
that wish from `b` to `c`. -/
def Request.Admits : (q : Request) → (b : Bool) → q.Reply → (c : Bool) → Prop
  | .isStopped, b, reply, c => reply = b ∧ c = b
  | .stop, _, _, c => c = true
  | .hooks _, b, _, c => b = true → c = true
  | .call _ _, b, _, c => b = true → c = true
  | .enter _ _, b, _, c => c = b
  | .leave, b, _, c => c = b
  | .reset _, b, _, c => c = b
  | .control, b, _, c => c = b
  | .find _, b, _, c => c = b

theorem Request.Admits.rises {q : Request} {b c : Bool} {reply : q.Reply}
    (h : q.Admits b reply c) (hb : b = true) : c = true := by
  cases q with
  | isStopped => exact h.2.trans hb
  | stop => exact h
  | hooks event => exact h hb
  | call m step => exact h hb
  | enter level values => exact Eq.trans h hb
  | leave => exact Eq.trans h hb
  | reset on => exact Eq.trans h hb
  | control => exact Eq.trans h hb
  | find step => exact Eq.trans h hb

theorem Request.stopped_of_cue? {q : Request} {b : Bool} {reply : q.Reply} {cue : Cue}
    (h : q.cue? b reply = some cue) : cue.stopped = b := by
  cases q <;> simp only [Request.cue?, Option.some.injEq, reduceCtorEq] at h
  all_goals
    subst h
    rfl

namespace Work

/-- The work may be done with these cues and this result while the wish to stop changes from
one value to the other. -/
inductive Course (k : Company) : Work α → Bool → List Cue → α → Bool → Prop where
  | done (a : α) (b : Bool) : Course k (.done a) b [] a b
  | ask {q : Request} {next : q.Reply → Work α} {b b' c d : Bool} {reply : q.Reply}
      {cues : List Cue} {a : α} (hlet : k.Lets b b') (hallowed : q.Admits b' reply c)
      (rest : Course k (next reply) c cues a d) :
      Course k (.ask q next) b ((q.cue? b' reply).toList ++ cues) a d

variable {k : Company} {b c : Bool} {cues : List Cue}

theorem course_done {a a' : α} :
    Course k (.done a) b cues a' c ↔ cues = [] ∧ a' = a ∧ c = b := by
  constructor
  · intro h
    cases h
    exact ⟨rfl, rfl, rfl⟩
  · rintro ⟨rfl, rfl, rfl⟩
    exact .done _ _

theorem course_request {q : Request} {reply : q.Reply} :
    Course k (request q) b cues reply c ↔
      ∃ b', k.Lets b b' ∧ q.Admits b' reply c ∧ cues = (q.cue? b' reply).toList := by
  constructor
  · intro h
    cases h with
    | ask hlet hallowed rest =>
      obtain ⟨rfl, rfl, rfl⟩ := course_done.1 rest
      exact ⟨_, hlet, hallowed, by simp⟩
  · rintro ⟨b', hlet, hallowed, rfl⟩
    have h := Course.ask hlet hallowed (.done reply c)
    simpa [request] using h

theorem course_enter {level : ScopeLevel} {values : List (String × Datum)} {u : Unit}
    (h : (enter level values).Course k b cues u c) :
    k.Lets b c ∧ cues = [.enter ⟨level, values, c⟩] := by
  obtain ⟨b', hlet, hsame, rfl⟩ := course_request.1 h
  cases hsame
  exact ⟨hlet, rfl⟩

theorem course_leave {u : Unit} (h : leave.Course k b cues u c) : k.Lets b c ∧ cues = [] := by
  obtain ⟨b', hlet, hsame, rfl⟩ := course_request.1 h
  cases hsame
  exact ⟨hlet, rfl⟩

theorem course_reset {on : Bool} {u : Unit} (h : (reset on).Course k b cues u c) :
    k.Lets b c ∧ cues = [] := by
  obtain ⟨b', hlet, hsame, rfl⟩ := course_request.1 h
  cases hsame
  exact ⟨hlet, rfl⟩

theorem course_control {reply : Control} (h : control.Course k b cues reply c) :
    k.Lets b c ∧ cues = [] := by
  obtain ⟨b', hlet, hsame, rfl⟩ := course_request.1 h
  cases hsame
  exact ⟨hlet, rfl⟩

theorem course_isStopped {reply : Bool} (h : isStopped.Course k b cues reply c) :
    k.Lets b c ∧ cues = [] ∧ c = reply := by
  obtain ⟨b', hlet, ⟨rfl, rfl⟩, rfl⟩ := course_request.1 h
  exact ⟨hlet, rfl, rfl⟩

theorem course_stop {u : Unit} (h : stop.Course k b cues u c) : cues = [] ∧ c = true := by
  obtain ⟨b', -, hstop, rfl⟩ := course_request.1 h
  exact ⟨rfl, hstop⟩

theorem course_find {step : Step} {reply : Except MatchError (Option StepMatch)}
    (h : (find step).Course k b cues reply c) :
    k.Lets b c ∧ cues = [.find ⟨step, reply, c⟩] := by
  obtain ⟨b', hlet, hsame, rfl⟩ := course_request.1 h
  cases hsame
  exact ⟨hlet, rfl⟩

/-- The courses of one piece of work after another are those of the first continued by those
of the second. -/
theorem course_bind {w : Work α} {f : α → Work β} {r : β} :
    Course k (w.bind f) b cues r c ↔
      ∃ first a b' second, cues = first ++ second ∧ Course k w b first a b' ∧
        Course k (f a) b' second r c := by
  induction w generalizing b cues with
  | done a =>
    constructor
    · intro h
      exact ⟨[], a, b, cues, rfl, .done a b, h⟩
    · rintro ⟨first, a', b', second, rfl, h₁, h₂⟩
      obtain ⟨rfl, rfl, rfl⟩ := course_done.1 h₁
      exact h₂
  | ask q next ih =>
    constructor
    · intro h
      rw [ask_bind] at h
      cases h with
      | ask hlet hallowed rest =>
        obtain ⟨first, a, b', second, rfl, h₁, h₂⟩ := (ih _).1 rest
        exact ⟨_, a, b', second, by simp, .ask hlet hallowed h₁, h₂⟩
    · rintro ⟨first, a, b', second, rfl, h₁, h₂⟩
      cases h₁ with
      | ask hlet hallowed rest =>
        have h := (ih _).2 ⟨_, a, b', second, rfl, rest, h₂⟩
        rw [ask_bind, List.append_assoc]
        exact .ask hlet hallowed h

theorem course_pure {a a' : α} (h : (pure a : Work α).Course k b cues a' c) :
    cues = [] ∧ a' = a ∧ c = b :=
  course_done.1 h

/-- `course_bind` for pieces of work joined in the usual notation. -/
theorem course_seq {w : Work α} {f : α → Work β} {r : β}
    (h : (w >>= f).Course k b cues r c) :
    ∃ first a b' second, cues = first ++ second ∧ Course k w b first a b' ∧
      Course k (f a) b' second r c :=
  course_bind.1 h

/-- A node is passed over if it is not selected or the run is to stop, and gone through
otherwise. -/
theorem course_selected {selected : Bool} {skipped a : α} {w : Work α}
    (h : (if selected then do
      if ← isStopped then return skipped
      else w
      else return skipped : Work α).Course k b cues a c) :
    (cues = [] ∧ a = skipped ∧ k.Lets b c ∧ (selected = false ∨ c = true)) ∨
      (selected = true ∧ k.Lets b false ∧ w.Course k false cues a c) := by
  split at h
  · rename_i hselected
    obtain ⟨first, polled, b₁, second, rfl, h₁, h₂⟩ := course_seq h
    obtain ⟨hlet, rfl, rfl⟩ := course_isStopped h₁
    split at h₂
    · rename_i hpolled
      obtain ⟨rfl, rfl, rfl⟩ := course_pure h₂
      exact .inl ⟨rfl, rfl, hlet, .inr hpolled⟩
    · rename_i hpolled
      rw [Bool.not_eq_true] at hpolled
      subst hpolled
      exact .inr ⟨hselected, hlet, h₂⟩
  · rename_i hselected
    obtain ⟨rfl, rfl, rfl⟩ := course_pure h
    exact .inl ⟨rfl, rfl, .refl k c, .inl (by simpa using hselected)⟩

/-- The wish to stop only rises, from cue to cue. -/
theorem Course.pairwise_rises {w : Work α} {a : α} (h : Course k w b cues a c) :
    (b = true → c = true) ∧ (∀ cue ∈ cues, b = true → cue.stopped = true) ∧
      (∀ cue ∈ cues, cue.stopped = true → c = true) ∧
      cues.Pairwise fun x y => x.stopped = true → y.stopped = true := by
  induction h with
  | done a b => simp
  | @ask q next b b' c d reply cues a hlet hallowed rest ih =>
    obtain ⟨hend, hfrom, hto, hpair⟩ := ih
    have hreach : b' = true → d = true := fun h => hend (hallowed.rises h)
    cases hcue : q.cue? b' reply with
    | none =>
      refine ⟨fun h => hreach (hlet.rises h), ?_, hto, hpair⟩
      intro cue hmem hb
      exact hfrom cue hmem (hallowed.rises (hlet.rises hb))
    | some first =>
      have hfirst : first.stopped = b' := Request.stopped_of_cue? hcue
      simp only [Option.toList_some, List.singleton_append, List.mem_cons, forall_eq_or_imp,
        List.pairwise_cons, hfirst]
      refine ⟨fun h => hreach (hlet.rises h), ⟨hlet.rises, ?_⟩, ⟨hreach, hto⟩, ?_, hpair⟩
      · intro cue hmem hb
        exact hfrom cue hmem (hallowed.rises (hlet.rises hb))
      · intro cue hmem hb
        exact hfrom cue hmem (hallowed.rises hb)

end Work

/-- A script may ask that the run be stopped, but cannot take such a request back. -/
theorem Script.cancelled_play (own : String) (s : Script W α) (m : Moment W)
    (h : m.cancelled = true) : (s.play own m).1.cancelled = true := by
  induction s generalizing m with
  | done a => exact h
  | world f next ih => exact ih _ _ h
  | look next ih => exact ih _ _ h
  | set key d next ih =>
    simp only [play]
    split
    · exact ih _ _ h
    · exact ih _ _ h
  | update key kind f next ih => exact ih _ _ h
  | output f next ih => exact ih _ h
  | skipScenario reason next ih => exact ih _ h
  | continueAfterFailure on next ih => exact ih _ h
  | log e next ih => exact ih _ h
  | cancel next ih => exact ih _ rfl
  | exchange f next ih => exact ih _ _ h

/-- The cues among deeds; `b` tells whether the run was to stop before them. -/
def cuesOf : Bool → List Deed → List Cue
  | _, [] => []
  | b, d :: rest => (d.request.cue? b d.reply).toList ++ cuesOf d.isStopped rest

namespace Stage

theorem isStopped_carryOut (own : String) (script : Script W α) (s : Stage W)
    (h : s.isStopped = true) : (s.carryOut own script).1.isStopped = true := by
  simp only [isStopped, Bool.or_eq_true] at h ⊢
  rcases h with h | h
  · left
    exact script.cancelled_play own ⟨s.world, s.context, s.cancelled, ""⟩ h
  · right
    exact h

end Stage

namespace Runner

/-- A runner answers as the wish to stop has it. -/
theorem admits_answer (r : Runner W) (s : Stage W) (q : Request) :
    q.Admits s.isStopped (r.answer s q).2 (r.answer s q).1.isStopped := by
  cases q with
  | isStopped => exact ⟨rfl, rfl⟩
  | stop => simp [Request.Admits, answer, Stage.isStopped]
  | hooks event => exact Stage.isStopped_carryOut r.ownTarget (r.hooks.call event) s
  | call m step => exact Stage.isStopped_carryOut r.ownTarget (r.registry.call m step) s
  | enter level values => rfl
  | leave => rfl
  | reset on => rfl
  | control => rfl
  | find step => rfl

/-- Whatever a runner does on a stage is a course of the work, done alone. -/
theorem course (r : Runner W) (w : Work α) (s : Stage W) :
    ∃ deeds : List Deed, (r.perform w s).1.past = deeds.reverse ++ s.past ∧
      w.Course .alone s.isStopped (cuesOf s.isStopped deeds) (r.perform w s).2
        (r.perform w s).1.isStopped := by
  induction w generalizing s with
  | done a => exact ⟨[], rfl, .done a _⟩
  | ask q next ih =>
    obtain ⟨deeds, hpast, hcourse⟩ := ih (r.reply s q).2 (r.reply s q).1
    refine ⟨⟨q, (r.answer s q).2, s.context, (r.answer s q).1.isStopped⟩ :: deeds, ?_, ?_⟩
    · rw [perform, hpast]
      simp [reply]
    · exact .ask rfl (r.admits_answer s q) hcourse

/-- Once a run is to stop, it stays so. -/
theorem isStopped_perform (r : Runner W) (w : Work α) (s : Stage W) (h : s.isStopped = true) :
    (r.perform w s).1.isStopped = true := by
  obtain ⟨deeds, -, hcourse⟩ := r.course w s
  exact hcourse.pairwise_rises.1 h

def cues (r : Runner W) (suite : Suite) (world : W) (cancelled : Bool) : List Cue :=
  cuesOf cancelled (r.run suite world cancelled).stage.past.reverse

end Runner

end Rehearsal
