import Rehearsal.Text.Intervals

/-!
# UTF-8

A code point in UTF-8 is one to four bytes. An interval of code points without surrogates is
a list of sequences of byte intervals: it is cut wherever the number of bytes changes and
wherever a byte does not run through all of its values.
-/

namespace Rehearsal

namespace Text

namespace Utf8

def encode (n : Nat) : List Nat :=
  if n < 0x80 then [n]
  else if n < 0x800 then [0xC0 + n / 0x40, 0x80 + n % 0x40]
  else if n < 0x10000 then [0xE0 + n / 0x1000, 0x80 + n / 0x40 % 0x40, 0x80 + n % 0x40]
  else
    [0xF0 + n / 0x40000, 0x80 + n / 0x1000 % 0x40, 0x80 + n / 0x40 % 0x40, 0x80 + n % 0x40]

/-- The last code points of one, two and three bytes. -/
def lengthBounds : List Nat := [0x7F, 0x7FF, 0xFFFF]

/-- How many code points share all bytes but the last one, the last two, the last three. -/
def blockSizes : List Nat := [0x40, 0x1000, 0x40000]

/-- Where to cut so that blocks of the given size lie on one side: the last code point before
the cut. -/
def blockCut? (lo hi size : Nat) : Option Nat :=
  if lo / size = hi / size then none
  else if lo % size ≠ 0 then some (lo / size * size + (size - 1))
  else if hi % size ≠ size - 1 then some (hi / size * size - 1)
  else none

/-- The last code point before the place where an interval has to be cut first. -/
def cut? (lo hi : Nat) : Option Nat :=
  match lengthBounds.find? fun bound => lo ≤ bound && bound < hi with
  | some bound => some bound
  | none => if hi ≤ 0x7F then none else blockSizes.findSome? (blockCut? lo hi)

def sequences (lo hi : Nat) : List (List (Nat × Nat)) :=
  match cut? lo hi with
  | some last =>
    if lo ≤ last ∧ last < hi then sequences lo last ++ sequences (last + 1) hi
    else [(encode lo).zip (encode hi)]
  | none => [(encode lo).zip (encode hi)]
termination_by hi - lo

def sequencesOf (s : Intervals) : List (List (Nat × Nat)) :=
  s.flatMap fun (lo, hi) => sequences lo hi

end Utf8

end Text

end Rehearsal
