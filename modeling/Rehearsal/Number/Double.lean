import Rehearsal.Number.Shortest
import Rehearsal.Number.Whole

/-!
# Doubles as text

A double is shown by the fewest digits that read back, always positionally: there is
no exponent however large or small it is, and of two equally near texts the greater one
is taken. A double is read from an optional sign and either one of the words `inf`,
`infinity` and `nan` in any case, or digits with at most one point among them and an
optional exponent.
-/

namespace Rehearsal

namespace Number

/-- The digits of a decimal, without an exponent. -/
def Decimal.positional (d : Decimal) : String :=
  let digits := Nat.toDigits 10 d.digits
  if 0 ≤ d.exponent then String.ofList (digits ++ List.replicate d.exponent.toNat '0')
  else
    let places := (-d.exponent).toNat
    let padded := List.replicate (places + 1 - digits.length) '0' ++ digits
    let whole := padded.length - places
    String.ofList (padded.take whole ++ '.' :: padded.drop whole)

/-- Drops the zeros at the end of the digits of a decimal. -/
def Decimal.strip (d : Decimal) : Nat → Decimal
  | 0 => d
  | fuel + 1 =>
    if d.digits % 10 = 0 && d.digits ≠ 0 then
      Decimal.strip ⟨d.digits / 10, d.exponent + 1⟩ fuel
    else d

/-- The mantissa and the exponent of the finite double with the given bits. -/
def decodeBits (bits : Nat) : Nat × Int :=
  let fraction : Nat := bits % Nat.pow 2 52
  let biased : Nat := bits / Nat.pow 2 52 % Nat.pow 2 11
  if biased = 0 then (fraction, -1074) else (Nat.pow 2 52 + fraction, (biased : Int) - 1075)

def showDouble (x : Float) : String :=
  let bits := x.toBits.toNat
  let sign := if bits / Nat.pow 2 63 = 1 then "-" else ""
  if x.isNaN then "NaN"
  else if x.isInf then sign ++ "inf"
  else
    let (m, q) := decodeBits bits
    if m = 0 then sign ++ "0"
    else sign ++ (Decimal.strip (shortest .up (Rounding.ofBinary m q (-1074))) 20).positional

inductive DoubleFault where
  | empty
  | invalid
  deriving DecidableEq, Repr, Inhabited

def DoubleFault.message : DoubleFault → String
  | empty => "cannot parse float from empty string"
  | invalid => "invalid float literal"

def digitsValue (cs : List Char) : Nat := cs.foldl (fun n c => 10 * n + digitValue c) 0

/-- The double nearest to `m · 10 ^ e`. Beyond the range of doubles the exponent does not
matter any more, so it is cut there. -/
def scaledDouble (m : Nat) (e : Int) : Float :=
  if m = 0 then 0
  else
    let size : Int := digitCount m
    if 400 < size + e then 1 / 0
    else if size + e < -400 then 0
    else Float.ofScientific m (e < 0) e.natAbs

/-- Reads an optional exponent; nothing may follow it. -/
def readExponent : List Char → Option Int
  | [] => some 0
  | c :: cs =>
    if c = 'e' || c = 'E' then
      let (negative, digits) := match cs with
        | '-' :: ds => (true, ds)
        | '+' :: ds => (false, ds)
        | ds => (false, ds)
      if digits.isEmpty || !digits.all Char.isDigit then none
      else some (if negative then -(digitsValue digits : Int) else digitsValue digits)
    else none

def readUnsigned (cs : List Char) : Option Float :=
  let whole := cs.takeWhile Char.isDigit
  let rest := cs.dropWhile Char.isDigit
  let (fraction, rest) := match rest with
    | '.' :: more => (more.takeWhile Char.isDigit, more.dropWhile Char.isDigit)
    | _ => ([], rest)
  if whole.isEmpty && fraction.isEmpty then none
  else (readExponent rest).map fun e =>
    scaledDouble (digitsValue (whole ++ fraction)) (e - fraction.length)

def readMagnitude (cs : List Char) : Option Float :=
  let lower := String.ofList (cs.map Char.toLower)
  if lower = "inf" || lower = "infinity" then some (1 / 0)
  else if lower = "nan" then some (0 / 0)
  else readUnsigned cs

def readDouble (cs : List Char) : Except DoubleFault Float :=
  let result := match cs with
    | '-' :: rest => (readMagnitude rest).map (- ·)
    | '+' :: rest => readMagnitude rest
    | all => readMagnitude all
  match cs, result with
  | [], _ => .error .empty
  | _, some x => .ok x
  | _, none => .error .invalid

end Number

end Rehearsal
