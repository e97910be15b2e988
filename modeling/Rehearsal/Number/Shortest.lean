/-!
# Shortest decimals

A finite positive double is `m · 2 ^ q`. All reals nearer to it than to any other
double read back as it, and so do the ends of that interval when `m` is even. The
shortest decimal of the double is the one with the fewest digits in that interval;
among those of equal length it is the nearest. Where two are equally near, a `Tie`
decides.

On the grid of the decimals with a given number of digits only the two neighbours of
the value need a test: if a point of the grid lies in the interval, one of the
neighbours does.
-/

namespace Rehearsal

namespace Number

/-- The decimal `digits · 10 ^ exponent`. -/
structure Decimal where
  digits : Nat
  exponent : Int
  deriving DecidableEq, Repr, Inhabited

/-- A positive real `value / scale` with the ends of the interval that rounds to it, all
over one denominator. -/
structure Rounding where
  low : Nat
  value : Nat
  high : Nat
  scale : Nat
  /-- Do the ends belong to the interval? -/
  closed : Bool
  deriving DecidableEq, Repr, Inhabited

namespace Rounding

/-- The interval of `m · 2 ^ q`. Below a power of two the doubles lie twice as close,
unless `q` is the least exponent there is. -/
def ofBinary (m : Nat) (q least : Int) : Rounding :=
  let low := if m = Nat.pow 2 52 && least < q then 4 * m - 1 else 4 * m - 2
  let shift := q - 2
  let up := Nat.pow 2 shift.toNat
  ⟨low * up, 4 * m * up, (4 * m + 2) * up, Nat.pow 2 (-shift).toNat, m % 2 == 0⟩

def contains (r : Rounding) (p : Nat) : Bool :=
  if r.closed then r.low ≤ p && p ≤ r.high else r.low < p && p < r.high

end Rounding

def digitCount (n : Nat) : Nat := (Nat.toDigits 10 n).length

/-- The exponent of the first digit of `value / scale`: the greatest `e` with
`10 ^ e ≤ value / scale`. -/
def leadingExponent (value scale : Nat) : Int :=
  if scale ≤ value then (digitCount (value / scale) : Int) - 1
  else
    let guess := digitCount (scale / value)
    if scale ≤ value * Nat.pow 10 (guess - 1) then 1 - (guess : Int)
    else -(guess : Int)

/-- Which of two equally near decimals is taken. -/
inductive Tie where
  | up
  /-- The one whose last digit is even. -/
  | toEven
  deriving DecidableEq, Repr, Inhabited

/-- Does a value halfway between `below` and the number after it go down? -/
def Tie.goesDown (tie : Tie) (below : Nat) : Bool :=
  match tie with
  | up => false
  | toEven => below % 2 == 0

/-- The better of the two neighbours of the value on the grid of step `10 ^ e`, if one is
in the interval. -/
def onGrid (tie : Tie) (r : Rounding) (e : Int) : Option Nat :=
  let up := Nat.pow 10 e.toNat
  let down := Nat.pow 10 (-e).toNat
  let below := r.value * down / (r.scale * up)
  let test (n : Nat) : Bool :=
    Rounding.contains
      { r with low := r.low * down, value := r.value * down, high := r.high * down }
      (n * r.scale * up)
  let twice := 2 * (r.value * down)
  let middle := (2 * below + 1) * (r.scale * up)
  let isNearer : Bool := twice < middle || (twice == middle && tie.goesDown below)
  match test below, test (below + 1) with
  | true, true => some (if isNearer then below else below + 1)
  | true, false => some below
  | false, true => some (below + 1)
  | false, false => none

/-- Tries the grids of `tried`, `tried + 1`, … digits, `left` of them. -/
def tryGrids (tie : Tie) (r : Rounding) (leading : Int) (tried : Nat) : Nat → Option Decimal
  | 0 => none
  | left + 1 =>
    let e := leading + 1 - tried
    match onGrid tie r e with
    | some n => some ⟨n, e⟩
    | none => tryGrids tie r leading (tried + 1) left

/-- The shortest decimal in the interval; seventeen digits always suffice for a double. -/
def shortest (tie : Tie) (r : Rounding) : Decimal :=
  (tryGrids tie r (leadingExponent r.value r.scale) 1 17).getD ⟨0, 0⟩

end Number

end Rehearsal
