import Rehearsal.Regex.CharClass

/-!
# The intervals of a character class

`CharClass.intervals` lists a class as intervals of code points, in order and with gaps
between them. What follows from the tables alone is worked out once.
-/

namespace Rehearsal

namespace CharClass

open Text

def decimalDigits : Intervals := .ofRuns (· == Category.nd) Category.runs

def alphabetics : Intervals :=
  .union (.ofRuns Category.isLetter Category.runs) (.ofRuns id Property.otherAlphabetic.runs)

def words : Intervals :=
  .union alphabetics <|
    .union (.ofRuns (fun k => k.isMark || k == .nd || k == .pc) Category.runs) [(0x200C, 0x200D)]

def foldAscii (s : Intervals) : Intervals :=
  let shifted (letters : Nat × Nat) (shift : Nat → Nat) : Intervals :=
    (Intervals.inter s [letters]).map fun (lo, hi) => (shift lo, shift hi)
  .union s (.union (shifted (97, 122) (· - 32)) (shifted (65, 90) (· + 32)))

/-- With every code point also those that differ from it in case only. -/
def foldAll (s : Intervals) : Intervals :=
  let table := s.toArray
  let met := foldPairs.filter fun (source, target) =>
    Intervals.isIn table source || Intervals.isIn table target
  let targets := Intervals.ofUnordered (met.map fun (_, target) => (target, target))
  let table := targets.toArray
  let sources := foldPairs.filter fun (_, target) => Intervals.isIn table target
  .union s (.union targets (.ofUnordered (sources.map fun (source, _) => (source, source))))

/-- The code points used in a script, given those that belong to it. -/
def scriptUses (code : String) (own : Intervals) : Intervals :=
  let rows := Script.extensions.toList
  let here := rows.filter fun (_, _, codes) => codes.contains code
  .union (.diff own (.ofUnordered (rows.map fun (lo, hi, _) => (lo, hi))))
    (.ofUnordered (here.map fun (lo, hi, _) => (lo, hi)))

def intervals : CharClass → Intervals
  | range lo hi => if lo ≤ hi then [(lo.toNat, hi.toNat)] else []
  | listed s => .ofUnordered s
  | digit ascii => if ascii then [(48, 57)] else decimalDigits
  | space ascii => if ascii then [(9, 13), (32, 32)] else blanks
  | word ascii => if ascii then [(48, 57), (65, 90), (95, 95), (97, 122)] else words
  | alphabetic => alphabetics
  | category among => .ofRuns among.contains Category.runs
  | script code => .ofRuns (· == code) Script.runs
  | usedIn code => scriptUses code (.ofRuns (· == code) Script.runs)
  | property p => .ofRuns id p.runs
  | assignedBy edition =>
    .ofRuns (fun first => match first with | some n => n ≤ edition | Option.none => false) Age.runs
  | breaking b value => .ofRuns (· == value) b.runs
  | none => []
  | union a b => .union (intervals a) (intervals b)
  | inter a b => .inter (intervals a) (intervals b)
  | diff a b => .diff (intervals a) (intervals b)
  | symmDiff a b =>
    let s := intervals a
    let t := intervals b
    .union (.diff s t) (.diff t s)
  | complement a => .complement (intervals a)
  | folded ascii a => if ascii then foldAscii (intervals a) else foldAll (intervals a)

end CharClass

end Rehearsal
