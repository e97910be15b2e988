import Rehearsal.Config.Setting
import Rehearsal.Number.Whole

/-!
# Scalars of TOML

The values that are written without quotes and brackets: truth values, integers in four
bases, numbers with a fraction or an exponent, dates and times. Single underscores may
stand between digits. No setting is a date or a fraction, so of these only the form is
checked.
-/

namespace Rehearsal

namespace Toml

def hexDigit? (c : Char) : Option Nat :=
  if c.isDigit then some (c.toNat - '0'.toNat)
  else if 'a' ≤ c && c ≤ 'f' then some (c.toNat - 'a'.toNat + 10)
  else if 'A' ≤ c && c ≤ 'F' then some (c.toNat - 'A'.toNat + 10)
  else none

def isScalar (c : Char) : Bool :=
  c.isAlpha || c.isDigit || c == '_' || c == '+' || c == '-' || c == '.' || c == ':'

/-! ## Numbers -/

/-- Digits, between which single underscores may stand, without the underscores. -/
def digits? (isDigit : Char → Bool) : List Char → Option (List Char)
  | [] => none
  | [c] => if isDigit c then some [c] else none
  | c :: '_' :: cs => if isDigit c then (digits? isDigit cs).map (c :: ·) else none
  | c :: cs => if isDigit c then (digits? isDigit cs).map (c :: ·) else none

def inBase? (base : Nat) (cs : List Char) : Option Int :=
  let isDigit (c : Char) : Bool :=
    match hexDigit? c with
    | some v => decide (v < base)
    | none => false
  (digits? isDigit cs).bind fun ds =>
    (ds.mapM hexDigit?).map fun vs => ((vs.foldl (fun n d => base * n + d) 0 : Nat) : Int)

/-- The value of decimal digits without a leading zero. -/
def decimal? (cs : List Char) : Option Int :=
  match cs with
  | ['0'] => some 0
  | '0' :: _ => none
  | cs => inBase? 10 cs

def integer? (cs : List Char) : Option Int :=
  match cs with
  | '0' :: 'x' :: rest => inBase? 16 rest
  | '0' :: 'o' :: rest => inBase? 8 rest
  | '0' :: 'b' :: rest => inBase? 2 rest
  | '+' :: rest => decimal? rest
  | '-' :: rest => (decimal? rest).map fun n => -n
  | rest => decimal? rest

def dropSign : List Char → List Char
  | '+' :: cs => cs
  | '-' :: cs => cs
  | cs => cs

/-- Does the text read as digits, leading zeros allowed? -/
def areDigits (cs : List Char) : Bool := (digits? Char.isDigit cs).isSome

def isExponentMark (c : Char) : Bool := c == 'e' || c == 'E'

/-- Is this a number with a fraction, an exponent or both, or one that is not finite? -/
def isFraction (cs : List Char) : Bool :=
  let unsigned := dropSign cs
  let mantissa := unsigned.takeWhile fun c => !isExponentMark c
  let whole := mantissa.takeWhile (· != '.')
  let fraction := mantissa.dropWhile (· != '.')
  let exponent := unsigned.dropWhile fun c => !isExponentMark c
  unsigned == "inf".toList || unsigned == "nan".toList ||
    ((decimal? whole).isSome &&
      (fraction.isEmpty || areDigits (fraction.drop 1)) &&
      (exponent.isEmpty || areDigits (dropSign (exponent.drop 1))) &&
      !(fraction.isEmpty && exponent.isEmpty))

/-! ## Dates and times -/

def twoDigits? : List Char → Option (Nat × List Char)
  | a :: b :: cs =>
    if a.isDigit && b.isDigit then
      some (10 * (a.toNat - '0'.toNat) + (b.toNat - '0'.toNat), cs)
    else none
  | _ => none

def daysOfMonth (year month : Nat) : Nat :=
  if month = 2 then
    if year % 4 = 0 && (year % 100 != 0 || year % 400 = 0) then 29 else 28
  else if month = 4 || month = 6 || month = 9 || month = 11 then 30
  else 31

/-- Reads a date: a year of four digits, a month and a day, joined by hyphens. -/
def date? (cs : List Char) : Option (List Char) := do
  let (century, rest) ← twoDigits? cs
  let (year, rest) ← twoDigits? rest
  match rest with
  | '-' :: rest =>
    let (month, rest) ← twoDigits? rest
    match rest with
    | '-' :: rest =>
      let (day, rest) ← twoDigits? rest
      if 1 ≤ month && month ≤ 12 && 1 ≤ day && day ≤ daysOfMonth (100 * century + year) month then
        some rest
      else none
    | _ => none
  | _ => none

/-- Reads a time of day: hours and minutes, which seconds may follow, with a fraction or
without. A second may be a leap second. -/
def time? (cs : List Char) : Option (List Char) := do
  let (hours, rest) ← twoDigits? cs
  match rest with
  | ':' :: rest =>
    let (minutes, rest) ← twoDigits? rest
    if 24 ≤ hours || 60 ≤ minutes then none
    else
      match rest with
      | ':' :: rest =>
        let (seconds, rest) ← twoDigits? rest
        if 60 < seconds then none
        else
          match rest with
          | '.' :: rest =>
            if (rest.takeWhile Char.isDigit).isEmpty then none
            else some (rest.dropWhile Char.isDigit)
          | rest => some rest
      | rest => some rest
  | _ => none

def isOffset (cs : List Char) : Bool :=
  let isClock (cs : List Char) : Bool :=
    match twoDigits? cs with
    | some (hours, ':' :: rest) =>
      match twoDigits? rest with
      | some (minutes, []) => decide (hours < 24) && decide (minutes < 60)
      | _ => false
    | _ => false
  match cs with
  | ['Z'] => true
  | ['z'] => true
  | '+' :: rest => isClock rest
  | '-' :: rest => isClock rest
  | _ => false

/-- Is this a date, a time, or a date and a time with an offset or without? -/
def isDate (cs : List Char) : Bool :=
  match date? cs with
  | some [] => true
  | some (c :: rest) =>
    if c = 'T' || c = 't' || c = ' ' then
      match time? rest with
      | some offset => offset.isEmpty || isOffset offset
      | none => false
    else false
  | none => time? cs == some []

def scalar? (cs : List Char) : Option Setting :=
  if cs = "true".toList then some (.truth true)
  else if cs = "false".toList then some (.truth false)
  else if isDate cs then some .date
  else if isFraction cs then some .fraction
  else (integer? cs).map .int

/-- Where a date ends in front of a blank and a time follows the blank, the text up to the
end of the time and the rest. -/
def spacedDate? (cs : List Char) : Option (List Char × List Char) :=
  let day := cs.takeWhile isScalar
  match date? day, cs.dropWhile isScalar with
  | some [], ' ' :: rest =>
    let time := rest.takeWhile isScalar
    if time.isEmpty then none else some (day ++ ' ' :: time, rest.dropWhile isScalar)
  | _, _ => none

def readScalar? (cs : List Char) : Option (Setting × List Char) :=
  let (text, rest) := (spacedDate? cs).getD (cs.takeWhile isScalar, cs.dropWhile isScalar)
  (scalar? text).map fun s => (s, rest)

end Toml

end Rehearsal
