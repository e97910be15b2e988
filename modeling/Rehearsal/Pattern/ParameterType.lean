import Rehearsal.Text.Quoted
import Rehearsal.Value

/-!
# Parameter types

A parameter type gives a placeholder of a pattern the regular expression it stands for
and the conversion of the text it matched. Every table has the built-in types; others are
added under names that are still free.
-/

namespace Rehearsal

structure ParameterType where
  name : String
  regex : String
  convert : String → Except String Value

namespace ParameterType

/-- The expression of a placeholder without a type: some text on one line, as short as
possible. -/
def untypedRegex : String := ".+?"

def int (name : String) : ParameterType :=
  ⟨name, "[-+]?\\d+", fun s =>
    match Number.readInt .signed64 s.toList with
    | .ok n => .ok (.int n)
    | .error e => .error e.message⟩

def float (name : String) : ParameterType :=
  ⟨name, "[-+]?(?:\\d+\\.\\d*|\\.\\d+|\\d+)(?:[eE][-+]?\\d+)?", fun s =>
    match Number.readDouble s.toList with
    | .ok x => .ok (.float x)
    | .error e => .error e.message⟩

def word (name : String) : ParameterType := ⟨name, "[^\\s]+", fun s => .ok (.text s)⟩

def describe (t : ParameterType) : String :=
  "ParameterType \x7b name: " ++ Text.quote t.name ++ ", regex: " ++ Text.quote t.regex ++
    ", .. \x7d"

def builtIn : List ParameterType :=
  [int "int", int "d", float "float", float "f", word "word", word "w"]

end ParameterType

/-- A table of parameter types, no two of one name. -/
structure ParameterTypes where
  types : List ParameterType

namespace ParameterTypes

def builtIn : ParameterTypes := ⟨ParameterType.builtIn⟩

def find? (t : ParameterTypes) (name : String) : Option ParameterType :=
  t.types.find? fun type => type.name == name

def register? (t : ParameterTypes) (type : ParameterType) : Option ParameterTypes :=
  if (t.find? type.name).isSome then none else some ⟨t.types ++ [type]⟩

theorem find?_name (t : ParameterTypes) (name : String) (type : ParameterType)
    (h : t.find? name = some type) : type.name = name := by
  have := List.find?_some h
  simpa using this

end ParameterTypes

end Rehearsal
