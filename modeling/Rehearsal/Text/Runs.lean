/-!
# Runs of code points

A property that gives every code point a value is listed as runs: a value in letters and
the number of consecutive code points that have it in decimal, beginning at code point
zero.
-/

namespace Rehearsal

namespace Text

namespace Runs

/-- Reads runs behind those read. `start` is the first code point of the run under way,
`value` the letters of its value, the last one first, and `length` what was read of its
length. -/
def read (start : Nat) (value : List Char) (length : Nat) (runs : Array (Nat × String)) :
    List Char → Array (Nat × String)
  | [] => if value.isEmpty then runs else runs.push (start, String.ofList value.reverse)
  | c :: rest =>
    if c.isDigit then read start value (10 * length + (c.toNat - '0'.toNat)) runs rest
    else if length = 0 then read start (c :: value) 0 runs rest
    else read (start + length) [c] 0 (runs.push (start, String.ofList value.reverse)) rest

/-- The first code point of every listed run with the value of the run, in order. -/
def ofLines (lines : List String) : Array (Nat × String) :=
  read 0 [] 0 #[] (String.join lines).toList

/-- The first code point of every listed run with whether its value is the plus sign. -/
def flags (lines : List String) : Array (Nat × Bool) :=
  (ofLines lines).map fun (start, value) => (start, value == "+")

/-- The intervals, both ends included, of the runs whose value is among the wanted ones; the
last run ends at `last`. -/
def intervals (wanted : α → Bool) (last : Nat) : List (Nat × α) → List (Nat × Nat)
  | [] => []
  | [(start, value)] => if wanted value then [(start, last)] else []
  | (start, value) :: (next, value') :: rest =>
    if wanted value then (start, next - 1) :: intervals wanted last ((next, value') :: rest)
    else intervals wanted last ((next, value') :: rest)

/-- The value of the last run of the window from `lo` to before `hi` that starts at or
before `n`; the run at `lo` is known to do so. -/
def findIn (runs : Array (Nat × α)) (n lo hi : Nat) : Option α :=
  if lo + 1 < hi then
    let middle := (lo + hi) / 2
    match runs[middle]? with
    | some (start, _) =>
      if start ≤ n then findIn runs n middle hi else findIn runs n lo middle
    | none => none
  else runs[lo]?.map (·.2)
termination_by hi - lo
decreasing_by all_goals omega

def find? (runs : Array (Nat × α)) (n : Nat) : Option α := findIn runs n 0 runs.size

def inRanges (ranges : Array (Nat × Nat)) (n : Nat) : Bool :=
  ranges.any fun (lo, hi) => lo ≤ n && n ≤ hi

end Runs

end Text

end Rehearsal
