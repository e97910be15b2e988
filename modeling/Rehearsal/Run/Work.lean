import Rehearsal.Hooks
import Rehearsal.Registry
import Rehearsal.Result

/-!
# Work

Going through a plan is work that asks things of its surroundings: to open and to close
scopes of the context, to look up steps, to call hooks and implementations, and to stop the
run. A `Work` is the tree of all its ways, one for every reply to every request, so what
holds on all ways holds whatever user code does and whenever the run is stopped.

`Work.Way` lists the requests of one way with their replies.
-/

namespace Rehearsal

structure SlotReply where
  outcomes : List Outcome
  captured : Captured
  deriving DecidableEq, Repr, Inhabited

structure CallReply where
  outcome : Outcome
  captured : Captured
  deriving DecidableEq, Repr, Inhabited

/-- What work asks of its surroundings. -/
inductive Request where
  /-- Opens a scope and stores values of the runner in it. -/
  | enter (level : ScopeLevel) (values : List (String × Datum))
  /-- Closes the innermost scope. -/
  | leave
  /-- Sets the switches for an attempt at a scenario. -/
  | reset (continueAfterFailure : Bool)
  /-- Reads the switches. -/
  | control
  /-- Is the run to stop? -/
  | isStopped
  /-- Stops the run. -/
  | stop
  /-- Looks a step up. -/
  | find (step : Step)
  /-- Calls a slot of hooks. -/
  | hooks (event : HookEvent)
  /-- Calls an implementation. -/
  | call (m : StepMatch) (step : Step)

abbrev Request.Reply : Request → Type
  | enter _ _ => Unit
  | leave => Unit
  | reset _ => Unit
  | control => Control
  | isStopped => Bool
  | stop => Unit
  | find _ => Except MatchError (Option StepMatch)
  | hooks _ => SlotReply
  | call _ _ => CallReply

/-- Work with a result of type `α`. -/
inductive Work (α : Type) where
  | done (a : α)
  | ask (q : Request) (next : q.Reply → Work α)

namespace Work

def bind : Work α → (α → Work β) → Work β
  | done a, k => k a
  | ask q next, k => ask q fun reply => bind (next reply) k

instance : Monad Work where
  pure := done
  bind := bind

@[simp] theorem done_bind (a : α) (k : α → Work β) : bind (done a) k = k a := rfl

@[simp] theorem ask_bind (q : Request) (next : q.Reply → Work α) (k : α → Work β) :
    bind (ask q next) k = ask q fun reply => bind (next reply) k := rfl

def request (q : Request) : Work q.Reply := ask q done

/-- Opens a scope and stores values of the runner in it. -/
def enter (level : ScopeLevel) (values : List (String × Datum)) : Work Unit :=
  request (.enter level values)

def leave : Work Unit := request .leave

def reset (continueAfterFailure : Bool) : Work Unit := request (.reset continueAfterFailure)

def control : Work Control := request .control

def isStopped : Work Bool := request .isStopped

def stop : Work Unit := request .stop

def find (step : Step) : Work (Except MatchError (Option StepMatch)) := request (.find step)

def hooks (event : HookEvent) : Work SlotReply := request (.hooks event)

def call (m : StepMatch) (step : Step) : Work CallReply := request (.call m step)

end Work

structure Exchange where
  request : Request
  reply : request.Reply

/-- The list of exchanges is one way through the work, with the result at its end. -/
inductive Work.Way : Work α → List Exchange → α → Prop where
  | done (a : α) : Way (.done a) [] a
  | ask {q : Request} {next : q.Reply → Work α} {reply : q.Reply} {es : List Exchange} {a : α}
      (h : Way (next reply) es a) : Way (.ask q next) (⟨q, reply⟩ :: es) a

/-- The ways through one piece of work after another are those through the first continued
by those through the second. -/
theorem Work.way_bind {w : Work α} {k : α → Work β} {es : List Exchange} {b : β} :
    Way (w.bind k) es b ↔
      ∃ es₁ es₂ a, es = es₁ ++ es₂ ∧ Way w es₁ a ∧ Way (k a) es₂ b := by
  induction w generalizing es with
  | done a =>
    constructor
    · intro h
      exact ⟨[], es, a, rfl, .done a, h⟩
    · rintro ⟨es₁, es₂, a', rfl, h₁, h₂⟩
      cases h₁
      exact h₂
  | ask q next ih =>
    constructor
    · intro h
      rw [ask_bind] at h
      cases h with
      | ask h =>
        obtain ⟨es₁, es₂, a, rfl, h₁, h₂⟩ := (ih _).1 h
        exact ⟨_ :: es₁, es₂, a, rfl, .ask h₁, h₂⟩
    · rintro ⟨es₁, es₂, a, rfl, h₁, h₂⟩
      cases h₁ with
      | ask h₁ => exact .ask ((ih _).2 ⟨_, _, a, rfl, h₁, h₂⟩)

end Rehearsal
