import Rehearsal.Number.Double
import Rehearsal.Text.Blank

/-!
# Argument values

A step argument is an integer, a double, a text or a truth value. A step
implementation asks for an argument as a value of some target; `Value.cast` converts
where that is possible without loss. A text is read after its blanks at the ends are
dropped, and every integer goes through the signed integers of 64 bits, whatever the
target.
-/

namespace Rehearsal

inductive Value where
  | int (n : Int)
  | float (x : Float)
  | text (s : String)
  | truth (b : Bool)
  deriving Repr, Inhabited, BEq

namespace Value

def kind : Value → String
  | int _ => "int"
  | float _ => "float"
  | text _ => "string"
  | truth _ => "bool"

def display : Value → String
  | int n => toString n
  | float x => Number.showDouble x
  | text s => s
  | truth b => if b then "true" else "false"

/-- What an implementation may ask for. -/
inductive Target where
  | signed64
  | signed32
  | unsigned32
  | unsigned64
  | machineWord
  | double
  | truth
  | text
  | value
  deriving DecidableEq, Repr, Inhabited

namespace Target

def all : List Target :=
  [signed64, signed32, unsigned32, unsigned64, machineWord, double, truth, text, value]

def name : Target → String
  | signed64 => "i64"
  | signed32 => "i32"
  | unsigned32 => "u32"
  | unsigned64 => "u64"
  | machineWord => "usize"
  | double => "f64"
  | truth => "bool"
  | text => "string"
  | value => "value"

end Target

def readTruth? (cs : List Char) : Option Bool :=
  if cs = "true".toList then some true
  else if cs = "false".toList then some false
  else none

/-- An integer of 64 bits, if the value denotes one. -/
def toInt? : Value → Option Int
  | int n => Number.IntRange.signed64.narrow? n
  | text s => Number.readInt? .signed64 (Text.trimChars s.toList)
  | _ => none

def toDouble? : Value → Option Float
  | float x => some x
  | int n => some (Float.ofInt n)
  | text s => (Number.readDouble (Text.trimChars s.toList)).toOption
  | truth _ => none

def toTruth? : Value → Option Bool
  | truth b => some b
  | text s => readTruth? (Text.trimChars s.toList)
  | _ => none

/-- Converts a value to a target. -/
def cast (v : Value) (t : Target) : Option Value :=
  match t with
  | .double => v.toDouble?.map float
  | .truth => v.toTruth?.map truth
  | .text => some (text v.display)
  | .value => some v
  | .signed64 => v.toInt?.map int
  | .signed32 => (v.toInt?.bind Number.IntRange.signed32.narrow?).map int
  | .unsigned32 => (v.toInt?.bind Number.IntRange.unsigned32.narrow?).map int
  | .unsigned64 => (v.toInt?.bind Number.IntRange.unsigned64.narrow?).map int
  | .machineWord => (v.toInt?.bind Number.IntRange.unsigned64.narrow?).map int

end Value

end Rehearsal
