import Rehearsal.Document.Step
import Rehearsal.Pattern
import Rehearsal.Script

/-!
# Registry

A registry holds step definitions: a pattern, the class of steps it is for, and the
implementation. A step is resolved to the one definition whose class accepts it and whose
pattern matches its text; that there are several is an error.

A match remembers its definition by its place in the registry. When the definitions have
been cleared since, nothing may stand in that place any more.
-/

namespace Rehearsal

inductive PatternClass where
  | context
  | action
  | outcome
  | any
  deriving DecidableEq, Repr, Inhabited

namespace PatternClass

def all : List PatternClass := [context, action, outcome, any]

def accepts : PatternClass → Option KeywordClass → Bool
  | any, _ => true
  | context, some .context => true
  | action, some .action => true
  | outcome, some .outcome => true
  | _, _ => false

def ofKeywordClass : KeywordClass → PatternClass
  | .context => context
  | .action => action
  | .outcome => outcome
  | .conjunction => any

def name : PatternClass → String
  | context => "context"
  | action => "action"
  | outcome => "outcome"
  | any => "any"

def title : PatternClass → String
  | context => "Context"
  | action => "Action"
  | outcome => "Outcome"
  | any => "Any"

end PatternClass

structure CodeLocation where
  file : String
  line : Nat
  deriving DecidableEq, Repr, Inhabited

def CodeLocation.render (l : CodeLocation) : String := l.file ++ ":" ++ toString l.line

/-- What an implementation is told: the step and the arguments taken from its text. -/
structure StepCall where
  step : Step
  arguments : List Argument
  deriving Repr, Inhabited

inductive ArgumentKey where
  | named (name : String)
  | position (index : Nat)
  deriving DecidableEq, Repr, Inhabited

inductive ArgumentError where
  | missing (key : ArgumentKey)
  | unconvertible (key : ArgumentKey) (kind : String) (target : Value.Target)
  deriving DecidableEq, Repr, Inhabited

namespace ArgumentError

def message : ArgumentError → String
  | missing (.named name) => "step has no argument named `" ++ name ++ "`"
  | missing (.position position) => "step has no argument at position " ++ toString position
  | unconvertible (.named name) kind target =>
    "argument `" ++ name ++ "` (" ++ kind ++ ") cannot be converted to " ++ target.name
  | unconvertible (.position position) kind target =>
    "argument " ++ toString position ++ " (" ++ kind ++ ") cannot be converted to " ++
      target.name

end ArgumentError

namespace StepCall

def find? (c : StepCall) : ArgumentKey → Option Argument
  | .named name => c.arguments.find? fun a => a.name == some name
  | .position position => c.arguments[position]?

def argument (c : StepCall) (key : ArgumentKey) (target : Value.Target) :
    Except ArgumentError Value :=
  match c.find? key with
  | none => .error (.missing key)
  | some a =>
    match a.value.cast target with
    | some v => .ok v
    | none => .error (.unconvertible key a.value.kind target)

end StepCall

/-- A step bound to a definition. -/
structure StepMatch where
  pattern : String
  location : CodeLocation
  arguments : List Argument
  /-- The place of the definition in the registry. -/
  place : Nat
  deriving Repr, Inhabited, BEq

structure StepDefinition (W : Type) where
  patternClass : PatternClass
  pattern : StepPattern
  location : CodeLocation
  implementation : StepCall → Script W Outcome

structure Candidate where
  pattern : String
  location : CodeLocation
  deriving DecidableEq, Repr, Inhabited

def Candidate.render (c : Candidate) : String :=
  "\"" ++ c.pattern ++ "\" @ " ++ c.location.render

inductive MatchError where
  | ambiguous (text : String) (candidates : List Candidate)
  | conversion (e : ConversionError)
  deriving DecidableEq, Repr, Inhabited

def MatchError.message : MatchError → String
  | ambiguous text candidates =>
    "ambiguous step `" ++ text ++ "` matches " ++ toString candidates.length ++ " patterns:" ++
      String.join (candidates.map fun c => "\n  - " ++ c.render)
  | conversion e => e.message

/-- Step definitions, in the order of their registration, and the parameter types their
patterns may use. -/
structure Registry (W : Type) where
  types : ParameterTypes
  definitions : List (StepDefinition W)

namespace Registry

def empty : Registry W := ⟨.builtIn, []⟩

def registerType (r : Registry W) (type : ParameterType) : Except PatternError (Registry W) :=
  match r.types.register? type with
  | some types => .ok { r with types := types }
  | none => .error (.duplicateType type.name)

def add (r : Registry W) (d : StepDefinition W) : Registry W :=
  { r with definitions := r.definitions ++ [d] }

/-- Adds a definition with a pattern in either style, or in the style of regular expressions
in any case. -/
def register (r : Registry W) (patternClass : PatternClass) (pattern : String) (asRegex : Bool)
    (location : CodeLocation) (implementation : StepCall → Script W Outcome) :
    Except PatternError (Registry W) :=
  match if asRegex then StepPattern.ofRegex pattern else StepPattern.compile r.types pattern with
  | .ok p => .ok (r.add ⟨patternClass, p, location, implementation⟩)
  | .error e => .error e

/-- Drops all definitions; the parameter types stay. -/
def clear (r : Registry W) : Registry W := { r with definitions := [] }

def fits (step : Step) (d : StepDefinition W) : Bool :=
  d.patternClass.accepts step.stepType && d.pattern.accepts step.text

/-- The definitions that can be used for a step, with their places, of which the first is
`place`. -/
def fitting (step : Step) (place : Nat) :
    List (StepDefinition W) → List (Nat × StepDefinition W)
  | [] => []
  | d :: rest =>
    if fits step d then (place, d) :: fitting step (place + 1) rest
    else fitting step (place + 1) rest

/-- Resolves a step: no match, one match, or an error. -/
def find (r : Registry W) (step : Step) : Except MatchError (Option StepMatch) :=
  match fitting step 0 r.definitions with
  | [] => .ok none
  | [(place, d)] =>
    match d.pattern.extract? step.text with
    | some (.error e) => .error (.conversion e)
    | some (.ok arguments) => .ok (some ⟨d.pattern.source, d.location, arguments, place⟩)
    | none => .ok (some ⟨d.pattern.source, d.location, [], place⟩)
  | many => .error (.ambiguous step.text (many.map fun (_, d) => ⟨d.pattern.source, d.location⟩))

def noLongerRegistered (m : StepMatch) : String :=
  "step definition for `" ++ m.pattern ++ "` is no longer registered"

/-- Calls the implementation of a match. -/
def call (r : Registry W) (m : StepMatch) (step : Step) : Script W Outcome :=
  match r.definitions[m.place]? with
  | some d => d.implementation ⟨step, m.arguments⟩
  | none => .done (.error (noLongerRegistered m) false)

def describe (r : Registry W) : String :=
  Text.quoteList (r.definitions.map fun d =>
    d.patternClass.title ++ " \"" ++ d.pattern.source ++ "\" @ " ++ d.location.render)

end Registry

end Rehearsal
