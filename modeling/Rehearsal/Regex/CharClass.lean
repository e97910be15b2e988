import Rehearsal.Text.Age
import Rehearsal.Text.Break
import Rehearsal.Text.CaseFold
import Rehearsal.Text.Extension
import Rehearsal.Text.Intervals
import Rehearsal.Text.Letter

/-!
# Character classes

A character class is a set of characters, written as an expression over intervals,
the usual named sets and the operations on sets. Membership is decided by
`CharClass.contains`.
-/

namespace Rehearsal

inductive CharClass where
  | range (lo hi : Char)
  /-- The characters whose code points are in the intervals. -/
  | listed (intervals : Text.Intervals)
  | digit (ascii : Bool)
  | space (ascii : Bool)
  | word (ascii : Bool)
  | alphabetic
  | category (among : List Text.Category)
  /-- The characters of a script, given by its four letters. -/
  | script (code : String)
  /-- The characters used in a script, given by its four letters. -/
  | usedIn (code : String)
  | property (p : Text.Property)
  /-- The characters assigned in the edition with the given number or before. -/
  | assignedBy (edition : Nat)
  | breaking (b : Text.Break) (value : String)
  | none
  | union (a b : CharClass)
  | inter (a b : CharClass)
  | diff (a b : CharClass)
  | symmDiff (a b : CharClass)
  | complement (a : CharClass)
  /-- With every character also those that differ from it in case only. -/
  | folded (ascii : Bool) (a : CharClass)
  deriving DecidableEq, Repr, Inhabited

namespace CharClass

def single (c : Char) : CharClass := range c c

def any : CharClass := complement none

def except (cs : List Char) : CharClass :=
  complement (cs.foldr (fun c s => union (single c) s) none)

def ofRanges (rs : List (Char × Char)) : CharClass :=
  rs.foldr (fun r s => union (range r.1 r.2) s) none

/-- The ASCII characters that differ from `c` in case only. -/
def asciiVariants (c : Char) : List Char :=
  if c.toNat < 128 then [c.toLower, c.toUpper] else [c]

def isAsciiSpace (c : Char) : Bool :=
  c == ' ' || (9 ≤ c.toNat && c.toNat ≤ 13)

def contains : CharClass → Char → Bool
  | range lo hi, c => lo ≤ c && c ≤ hi
  | listed intervals, c => intervals.contains c.toNat
  | digit ascii, c => if ascii then c.isDigit else Text.isDecimalDigit c
  | space ascii, c => if ascii then isAsciiSpace c else Text.isBlank c
  | word ascii, c => if ascii then Text.isAsciiAlphanumeric c || c == '_' else Text.isWord c
  | alphabetic, c => Text.isAlphabetic c
  | category among, c => among.contains (Text.Category.of c)
  | script code, c => Text.Script.of c == code
  | usedIn code, c => Text.Script.isUsedIn code c
  | property p, c => p.holds c
  | assignedBy edition, c => Text.Age.isAssignedBy edition c.toNat
  | breaking b value, c => b.of c == value
  | none, _ => false
  | union a b, c => contains a c || contains b c
  | inter a b, c => contains a c && contains b c
  | diff a b, c => contains a c && !contains b c
  | symmDiff a b, c => contains a c != contains b c
  | complement a, c => !contains a c
  | folded ascii a, c =>
    if ascii then (asciiVariants c).any (contains a) else (Text.caseVariants c).any (contains a)

theorem contains_single (a c : Char) : (single a).contains c = true ↔ c = a := by
  simp only [single, contains, Bool.and_eq_true, decide_eq_true_eq]
  constructor
  · rintro ⟨h, h'⟩
    exact Char.le_antisymm h' h
  · rintro rfl
    exact ⟨Char.le_refl _, Char.le_refl _⟩

@[simp] theorem contains_none (c : Char) : none.contains c = false := rfl

@[simp] theorem contains_union (a b : CharClass) (c : Char) :
    (union a b).contains c = (a.contains c || b.contains c) := rfl

@[simp] theorem contains_complement (a : CharClass) (c : Char) :
    (complement a).contains c = !a.contains c := rfl

end CharClass

end Rehearsal
