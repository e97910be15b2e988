import Rehearsal.Pattern.Placeholder
import Rehearsal.Regex.Meaning

/-!
# Step patterns

A step pattern is written either as text with placeholders or, with `^` in front, as a
regular expression. Both become one regular expression that has to cover a step text from
its first to its last character, and a list of parameters that say which groups of it are
arguments.
-/

namespace Rehearsal

inductive PatternStyle where
  | placeholders
  | regex
  deriving DecidableEq, Repr, Inhabited

/-- A parameter of a pattern: its name, the number of the group that holds its text, and
its type. -/
structure Parameter where
  name : Option String
  group : Option Nat
  type : Option ParameterType

/-- A value taken from a step text, with its bounds in bytes. -/
structure Argument where
  name : Option String
  value : Value
  raw : String
  start : Nat
  stop : Nat
  deriving Repr, Inhabited, BEq

structure ConversionError where
  argument : String
  value : String
  typeName : String
  detail : String
  deriving DecidableEq, Repr, Inhabited

def ConversionError.message (e : ConversionError) : String :=
  "cannot convert argument `" ++ e.argument ++ "` value `" ++ e.value ++ "` to " ++ e.typeName ++
    ": " ++ e.detail

structure StepPattern where
  source : String
  style : PatternStyle
  regex : Regex.Compiled
  parameters : List Parameter

namespace StepPattern

/-- A regular expression that has to cover the whole text. -/
def anchored (source body : String) : Except PatternError Regex.Compiled :=
  match Regex.compile? ("^(?:" ++ body ++ ")$") with
  | some r => .ok r
  | none => .error (.regex source)

/-- The parameters of a regular expression: all its groups. -/
def groupParameters (first : Nat) : List (Option String) → List Parameter
  | [] => []
  | name :: rest => ⟨name, some first, none⟩ :: groupParameters (first + 1) rest

def ofRegex (source : String) : Except PatternError StepPattern :=
  match anchored source source with
  | .ok r => .ok ⟨source, .regex, r, groupParameters 1 r.names⟩
  | .error e => .error e

def escape (c : Char) : List Char := if Regex.Reader.isMeta c then ['\\', c] else [c]

def groupName (i : Nat) : String := "__p" ++ toString i

/-- The regular expression of pieces, of which the first placeholder has index `i`. -/
def body (i : Nat) : List PatternPiece → List Char
  | [] => []
  | .literal c :: rest => escape c ++ body i rest
  | .placeholder _ type :: rest =>
    let regex := match type with
      | some type => type.regex
      | none => ParameterType.untypedRegex
    ("(?P<" ++ groupName i ++ ">" ++ regex ++ ")").toList ++ body (i + 1) rest

def groupNumber? (names : List (Option String)) (name : String) : Option Nat :=
  (names.findIdx? fun n => n == some name).map (· + 1)

/-- The parameters of pieces, of which the first placeholder has index `i`. -/
def placeholderParameters (names : List (Option String)) (i : Nat) :
    List PatternPiece → List Parameter
  | [] => []
  | .literal _ :: rest => placeholderParameters names i rest
  | .placeholder name type :: rest =>
    ⟨name, groupNumber? names (groupName i), type⟩ :: placeholderParameters names (i + 1) rest

def ofPlaceholders (types : ParameterTypes) (source : String) :
    Except PatternError StepPattern :=
  match PatternPiece.all types source with
  | .error e => .error e
  | .ok pieces =>
    match anchored source (String.ofList (body 0 pieces)) with
    | .error e => .error e
    | .ok r => .ok ⟨source, .placeholders, r, placeholderParameters r.names 0 pieces⟩

def compile (types : ParameterTypes) (source : String) : Except PatternError StepPattern :=
  match source.toList with
  | '^' :: _ => ofRegex source
  | _ => ofPlaceholders types source

def accepts (p : StepPattern) (text : String) : Bool :=
  p.regex.root.isFoundIn text.toList.toArray

/-- The arguments of the parameters, the first of which has index `index`. A parameter
whose group took no part in the match gives none. -/
def argumentsOf (text : List Char) (walk : Regex.Walk) (index : Nat) :
    List Parameter → Except ConversionError (List Argument)
  | [] => .ok []
  | p :: rest =>
    match p.group.bind walk.span? with
    | none => argumentsOf text walk (index + 1) rest
    | some (i, j) =>
      let raw := String.ofList (Text.slice text i j)
      let value : Except ConversionError Value := match p.type with
        | none => .ok (.text raw)
        | some type =>
          match type.convert raw with
          | .ok v => .ok v
          | .error detail => .error ⟨p.name.getD (toString index), raw, type.name, detail⟩
      match value with
      | .error e => .error e
      | .ok v =>
        (argumentsOf text walk (index + 1) rest).map
          (⟨p.name, v, raw, Text.byteOffset text i, Text.byteOffset text j⟩ :: ·)

def extract? (p : StepPattern) (text : String) :
    Option (Except ConversionError (List Argument)) :=
  (p.regex.root.search text.toList.toArray).map fun (_, walk) =>
    argumentsOf text.toList walk 0 p.parameters

/-- A text is matched exactly when arguments are taken from it. -/
theorem accepts_eq_isSome_extract? (p : StepPattern) (text : String) :
    p.accepts text = (p.extract? text).isSome := by
  simp [accepts, extract?, Regex.isFoundIn]

end StepPattern

end Rehearsal
