import Rehearsal.Text.Runs

/-!
# Intervals of code points

A set of code points is listed as its intervals, both ends included, in order and with
gaps between them.
-/

namespace Rehearsal

namespace Text

/-- Intervals of code points, both ends included. -/
abbrev Intervals := List (Nat × Nat)

namespace Intervals

def last : Nat := 0x10FFFF

def contains (s : Intervals) (n : Nat) : Bool := s.any fun (lo, hi) => lo ≤ n && n ≤ hi

/-- Puts an interval in front and joins it with those it touches. -/
def cons (lo hi : Nat) : Intervals → Intervals
  | [] => [(lo, hi)]
  | (lo', hi') :: rest =>
    if lo' ≤ hi + 1 ∧ lo ≤ hi' + 1 then cons (min lo lo') (max hi hi') rest
    else (lo, hi) :: (lo', hi') :: rest

def join : Intervals → Intervals
  | [] => []
  | (lo, hi) :: rest => cons lo hi (join rest)

/-- All intervals of two ordered lists in the order of their first code points. -/
def merge : Intervals → Intervals → Intervals
  | [], t => t
  | s, [] => s
  | a :: s, b :: t => if a.1 ≤ b.1 then a :: merge s (b :: t) else b :: merge (a :: s) t
termination_by s t => s.length + t.length

def union (s t : Intervals) : Intervals := join (merge s t)

/-- The code points from `start` on that are in no interval. -/
def complementFrom (start : Nat) : Intervals → Intervals
  | [] => if start ≤ last then [(start, last)] else []
  | (lo, hi) :: rest =>
    if start < lo then (start, lo - 1) :: complementFrom (hi + 1) rest
    else complementFrom (hi + 1) rest

def complement (s : Intervals) : Intervals := complementFrom 0 s

def inter (s t : Intervals) : Intervals := complement (union (complement s) (complement t))

def diff (s t : Intervals) : Intervals := inter s (complement t)

def ofUnordered (s : Intervals) : Intervals := join (s.mergeSort fun a b => a.1 ≤ b.1)

def ofRuns (wanted : α → Bool) (runs : Array (Nat × α)) : Intervals :=
  join (Runs.intervals wanted last runs.toList)

/-- Is `n` in one of the intervals of a table? They are looked up by halves. -/
def isIn (table : Array (Nat × Nat)) (n : Nat) : Bool :=
  match table[0]? with
  | some (lo, _) => lo ≤ n && (Runs.find? table n).any (n ≤ ·)
  | none => false

/-- The code points that are characters: those between U+D800 and U+DFFF are none. -/
def characters (s : Intervals) : Intervals := diff s [(0xD800, 0xDFFF)]

end Intervals

end Text

end Rehearsal
