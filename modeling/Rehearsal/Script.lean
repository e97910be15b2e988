import Rehearsal.Context
import Rehearsal.Log

/-!
# Scripts

A script is what hooks and step implementations do: a sequence of requests to the context,
to the log, to the run and to a world of their own, each of which may depend on the answers
so far. Most requests go through the methods of the context. But user code holds the context by
reference, so it may also put another one in its place (`Script.exchange`).

The world is whatever user code shares outside of the context. What lies behind a lock or in an
atomic belongs to the world, too: only the handle to it is a value of the context, and who finds
the handle may go to the world.

`Script.play` carries a script out on a `Moment`.
-/

namespace Rehearsal

/-- A piece of user code with a world `W` of its own and a result of type `α`. -/
inductive Script (W α : Type) where
  | done (a : α)
  /-- Changes the world and goes on with the new one. -/
  | world (f : W → W) (next : W → Script W α)
  /-- Reads the context. -/
  | look (next : Context.View → Script W α)
  | set (key : String) (d : Datum) (next : Except Context.Masked Unit → Script W α)
  /-- Changes a value in place and goes on with the new value. -/
  | update (key : String) (k : Datum.Kind) (f : k.Carrier → k.Carrier)
      (next : Option k.Carrier → Script W α)
  /-- Changes what is in the output streams. -/
  | output (f : Output → Output) (next : Script W α)
  | skipScenario (reason : String) (next : Script W α)
  | continueAfterFailure (on : Bool) (next : Script W α)
  | log (e : LogEvent) (next : Script W α)
  /-- Asks from outside that the run be stopped. -/
  | cancel (next : Script W α)
  /-- Puts another context in the place of the one at hand, which the world may keep. -/
  | exchange (f : W → Context → W × Context) (next : W → Script W α)

namespace Script

def bind (s : Script W α) (k : α → Script W β) : Script W β :=
  match s with
  | done a => k a
  | world f next => world f fun w => bind (next w) k
  | look next => look fun v => bind (next v) k
  | set key d next => set key d fun r => bind (next r) k
  | update key kind f next => update key kind f fun r => bind (next r) k
  | output f next => output f (bind next k)
  | skipScenario reason next => skipScenario reason (bind next k)
  | continueAfterFailure on next => continueAfterFailure on (bind next k)
  | log e next => log e (bind next k)
  | cancel next => cancel (bind next k)
  | exchange f next => exchange f fun w => bind (next w) k

instance : Monad (Script W) where
  pure := done
  bind := bind

end Script

/-- What a script acts on. -/
structure Moment (W : Type) where
  world : W
  context : Context
  /-- Was the run asked from outside to stop? -/
  cancelled : Bool
  /-- The log lines collected. -/
  log : String

namespace Script

/-- Carries a script out; `own` starts the log targets of the runner itself. -/
def play (own : String) : Script W α → Moment W → Moment W × α
  | done a, m => (m, a)
  | world f next, m =>
    let w := f m.world
    play own (next w) { m with world := w }
  | look next, m => play own (next m.context.view) m
  | set key d next, m =>
    match m.context.set key d with
    | .ok c => play own (next (.ok ())) { m with context := c }
    | .error e => play own (next (.error e)) m
  | update key k f next, m =>
    match m.context.update key k f with
    | (c, x) => play own (next x) { m with context := c }
  | output f next, m =>
    play own next { m with context := { m.context with output := f m.context.output } }
  | skipScenario reason next, m =>
    play own next
      { m with context :=
          { m.context with control := { m.context.control with skipReason := some reason } } }
  | continueAfterFailure on next, m =>
    play own next
      { m with context :=
          { m.context with control := { m.context.control with continueAfterFailure := on } } }
  | log e next, m => play own next { m with log := m.log ++ e.collected own }
  | cancel next, m => play own next { m with cancelled := true }
  | exchange f next, m =>
    match f m.world m.context with
    | (w, c) => play own (next w) { m with world := w, context := c }

@[simp] theorem play_done (own : String) (a : α) (m : Moment W) :
    play own (done a) m = (m, a) := rfl

/-- Playing one script after another is playing their sequence. -/
theorem play_bind (own : String) (s : Script W α) (k : α → Script W β) (m : Moment W) :
    play own (s.bind k) m = play own (k (play own s m).2) (play own s m).1 := by
  induction s generalizing m with
  | done a => rfl
  | world f next ih => exact ih _ _
  | look next ih => exact ih _ _
  | set key d next ih =>
    simp only [bind, play]
    split <;> exact ih _ _
  | update key kind f next ih => exact ih _ _
  | output f next ih => exact ih _
  | skipScenario reason next ih => exact ih _
  | continueAfterFailure on next ih => exact ih _
  | log e next ih => exact ih _
  | cancel next ih => exact ih _
  | exchange f next ih => exact ih _ _

end Script

inductive Outcome where
  | ok
  /-- An error; `stop` tells whether it asks the run to stop. -/
  | error (message : String) (stop : Bool)
  /-- A panic with its message, unless it carried something else. -/
  | panic (message : Option String)
  deriving DecidableEq, Repr, Inhabited

structure Failure where
  message : String
  stop : Bool
  deriving DecidableEq, Repr, Inhabited

/-- The failure of a call, if it failed. A panic never asks the run to stop. -/
def Outcome.failure? : Outcome → Option Failure
  | ok => none
  | error message stop => some ⟨message, stop⟩
  | panic (some message) => some ⟨"panicked: " ++ message, false⟩
  | panic none => some ⟨"panicked: non-string panic payload", false⟩

end Rehearsal
