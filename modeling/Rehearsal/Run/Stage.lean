import Rehearsal.Run.Work

/-!
# Stages

A stage is what a run acts on: the world of the user code, the context, and the two ways in
which a run is stopped, from outside and by itself. `Runner.perform` does work on a stage
and keeps an account of every request, its reply and the context it found.
-/

namespace Rehearsal

/-- What a run consists of besides the documents. The log targets that start with
`ownTarget` are the runner's own. -/
structure Runner (W : Type) where
  registry : Registry W
  hooks : Hooks W
  options : RunOptions
  ownTarget : String

/-- A request that was answered: the reply, the context before it, and whether the run was
to stop after it. -/
structure Deed where
  request : Request
  reply : request.Reply
  found : Context
  isStopped : Bool

def Deed.exchange (d : Deed) : Exchange := ⟨d.request, d.reply⟩

structure Stage (W : Type) where
  world : W
  context : Context
  /-- Was the run asked from outside to stop? -/
  cancelled : Bool
  /-- Has the run stopped itself? -/
  stopped : Bool
  /-- What was done, the latest first. -/
  past : List Deed

namespace Stage

def start (world : W) (cancelled : Bool) : Stage W := ⟨world, .fresh, cancelled, false, []⟩

def isStopped (s : Stage W) : Bool := s.cancelled || s.stopped

def onContext (f : Context → Context) (s : Stage W) : Stage W := { s with context := f s.context }

/-- Carries out user code. What it leaves in the output streams and in the log is captured. -/
def carryOut (own : String) (script : Script W α) (s : Stage W) : Stage W × α × Captured :=
  let (m, a) := script.play own ⟨s.world, s.context, s.cancelled, ""⟩
  ({ s with world := m.world, context := m.context.clearOutput, cancelled := m.cancelled }, a,
    ⟨m.context.output.stdout, m.context.output.stderr, m.log⟩)

end Stage

def Context.ownAll (c : Context) (values : List (String × Datum)) : Context :=
  values.foldl (fun c v => c.own v.1 v.2) c

namespace Runner

def answer (r : Runner W) (s : Stage W) : (q : Request) → Stage W × q.Reply
  | .enter level values => (s.onContext fun c => (c.push level).ownAll values, ())
  | .leave => (s.onContext Context.pop, ())
  | .reset b => (s.onContext fun c => c.resetControl b, ())
  | .control => (s, s.context.control)
  | .isStopped => (s, s.isStopped)
  | .stop => ({ s with stopped := true }, ())
  | .find step => (s, r.registry.find step)
  | .hooks event =>
    match s.carryOut r.ownTarget (r.hooks.call event) with
    | (t, outcomes, captured) => (t, ⟨outcomes, captured⟩)
  | .call m step =>
    match s.carryOut r.ownTarget (r.registry.call m step) with
    | (t, outcome, captured) => (t, ⟨outcome, captured⟩)

/-- Answers a request and puts it on record. -/
def reply (r : Runner W) (s : Stage W) (q : Request) : Stage W × q.Reply :=
  match r.answer s q with
  | (t, reply) => ({ t with past := ⟨q, reply, s.context, t.isStopped⟩ :: s.past }, reply)

def perform (r : Runner W) : Work α → Stage W → Stage W × α
  | .done a, s => (s, a)
  | .ask q next, s =>
    match r.reply s q with
    | (t, reply) => perform r (next reply) t

@[simp] theorem perform_done (r : Runner W) (a : α) (s : Stage W) :
    r.perform (.done a) s = (s, a) := rfl

/-- Doing one piece of work after another is doing their sequence. -/
theorem perform_bind (r : Runner W) (w : Work α) (k : α → Work β) (s : Stage W) :
    r.perform (w.bind k) s = r.perform (k (r.perform w s).2) (r.perform w s).1 := by
  induction w generalizing s with
  | done a => rfl
  | ask q next ih => exact ih _ _

/-- What is done on a stage is a way through the work. -/
theorem exists_way (r : Runner W) (w : Work α) (s : Stage W) :
    ∃ deeds : List Deed, (r.perform w s).1.past = deeds.reverse ++ s.past ∧
      w.Way (deeds.map Deed.exchange) (r.perform w s).2 := by
  induction w generalizing s with
  | done a => exact ⟨[], rfl, .done a⟩
  | ask q next ih =>
    obtain ⟨deeds, hpast, hway⟩ := ih (r.reply s q).2 (r.reply s q).1
    refine ⟨⟨q, (r.answer s q).2, s.context, (r.answer s q).1.isStopped⟩ :: deeds, ?_, ?_⟩
    · rw [perform, hpast]
      simp [reply]
    · exact .ask hway

end Runner

end Rehearsal
