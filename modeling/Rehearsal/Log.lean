/-!
# Log lines

User code writes log events. While some piece of it runs, the lines of its events are
collected; events of the runner itself, told by the start of their target, are left out.

`Log.Activity` is a tree of events, of nested scopes that collect lines of their own, and of
panics. A thread has one place for the buffer in use. The guard of a scope keeps the buffer that
was there before and puts it back when the scope ends, however it ends.
-/

namespace Rehearsal

inductive LogLevel where
  | trace
  | debug
  | info
  | warn
  | error
  deriving DecidableEq, Repr, Inhabited

namespace LogLevel

def all : List LogLevel := [trace, debug, info, warn, error]

def name : LogLevel → String
  | trace => "trace"
  | debug => "debug"
  | info => "info"
  | warn => "warn"
  | error => "error"

/-- What a line starts with, five characters wide. -/
def label : LogLevel → String
  | trace => "TRACE"
  | debug => "DEBUG"
  | info => "INFO "
  | warn => "WARN "
  | error => "ERROR"

end LogLevel

structure LogEvent where
  level : LogLevel
  target : String
  fields : List (String × String)
  deriving DecidableEq, Repr, Inhabited

namespace LogEvent

/-- A field as it stands in a line; the message stands alone. -/
def field (f : String × String) : String :=
  if f.1 = "message" then " " ++ f.2 else " " ++ f.1 ++ "=" ++ f.2

def line (e : LogEvent) : String :=
  e.level.label ++ " " ++ e.target ++ ":" ++ String.join (e.fields.map field) ++ "\n"

/-- Is the event one of the runner's own, whose targets start with `own`? -/
def isOwn (own : String) (e : LogEvent) : Bool := own.toList.isPrefixOf e.target.toList

/-- The line of an event that is to be collected; no line for an event of the runner. -/
def collected (own : String) (e : LogEvent) : String := if e.isOwn own then "" else e.line

end LogEvent

namespace Log

inductive Activity where
  | event (e : LogEvent)
  /-- A panic breaks off all that is under way, up to the next place where it is caught. -/
  | panic
  /-- A scope collects the lines of the events that happen in it. -/
  | scope (body : List Activity)
  /-- A place where panics of its body are caught. -/
  | caught (body : List Activity)

/-- What comes of a scope: the lines that it hands over at its end, or nothing if a panic has
broken it off. In either case the scopes directly in it have had their own outcomes. -/
inductive Collected where
  | scope (log : String) (inner : List Collected)
  | broken (inner : List Collected)
  deriving Repr, Inhabited

/-- The buffer of the innermost scope, if there is one. -/
abbrev Buffer := Option String

def append (own : String) (b : Buffer) (e : LogEvent) : Buffer :=
  b.map (· ++ e.collected own)

/-- The guard of an open scope keeps the buffer that the scope has found. -/
structure Guard where
  found : Buffer

namespace Guard

/-- Opens a scope: an empty buffer takes the place of the one that is found. -/
def enter (b : Buffer) : Guard × Buffer := (⟨b⟩, some "")

/-- Puts the buffer back that was found, and gives up the one in its place. -/
def drop (g : Guard) (_given : Buffer) : Buffer := g.found

/-- Takes out what was collected, and drops the guard then. -/
def finish (g : Guard) (b : Buffer) : String × Buffer := (b.getD "", g.drop none)

end Guard

/-- How far activities have come: the buffer, the outcomes of the scopes directly in them, and
whether a panic is under way. -/
structure Progress where
  buffer : Buffer
  outcomes : List Collected
  panicked : Bool
  deriving Repr, Inhabited

mutual

/-- Carries out one activity. A scope that is left by a panic drops its guard. -/
def carryOut (own : String) (b : Buffer) : Activity → Progress
  | .event e => ⟨append own b e, [], false⟩
  | .panic => ⟨b, [], true⟩
  | .scope body =>
    let (guard, opened) := Guard.enter b
    let inside := carryOutAll own opened body
    if inside.panicked then ⟨guard.drop inside.buffer, [.broken inside.outcomes], true⟩
    else
      let (log, restored) := guard.finish inside.buffer
      ⟨restored, [.scope log inside.outcomes], false⟩
  | .caught body =>
    let inside := carryOutAll own b body
    ⟨inside.buffer, inside.outcomes, false⟩

/-- Carries out activities in order, up to a panic. -/
def carryOutAll (own : String) (b : Buffer) : List Activity → Progress
  | [] => ⟨b, [], false⟩
  | a :: rest =>
    let first := carryOut own b a
    if first.panicked then first
    else
      let others := carryOutAll own first.buffer rest
      ⟨others.buffer, first.outcomes ++ others.outcomes, others.panicked⟩

end

@[simp] theorem carryOutAll_nil (own : String) (b : Buffer) :
    carryOutAll own b [] = ⟨b, [], false⟩ := rfl

end Log

end Rehearsal
