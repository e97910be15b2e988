import Rehearsal.Proofs.Automaton

/-!
# The memory of the class of decimal digits

The decimal digits are taken from the table of general categories, which is text. Here the table is
read as a list of characters (`toList_runs`), and what the class of the digits takes is worked out
from that (`classBytes_digit_le`).
-/

namespace Rehearsal

namespace Text

/-- The characters of the lines, one after the other. Lines are put down as lists of characters, so
that they are not decoded to be read. -/
inductive Spells : List String → List Char → Prop where
  | nil : Spells [] []
  | cons {line : String} {lines : List String} {l cs : List Char} (hline : line = String.ofList l)
      (h : Spells lines cs) : Spells (line :: lines) (l ++ cs)

theorem Spells.toList_join {lines : List String} {cs : List Char} (h : Spells lines cs) :
    (String.join lines).toList = cs := by
  induction h with
  | nil => rfl
  | cons hline _ ih =>
    rw [String.toList_join] at ih ⊢
    rw [List.flatMap_cons, ih, hline, String.toList_ofList]

namespace Runs

/-- Applies a function to a number that is worked out before. -/
def evaluated {α : Type} (n : Nat) (f : Nat → α) : α :=
  match n with
  | 0 => f 0
  | n + 1 => f (n + 1)

theorem evaluated_eq {α : Type} (n : Nat) (f : Nat → α) : evaluated n f = f n := by
  cases n <;> rfl

def ofChars (start : Nat) (value : List Char) (length : Nat) : List Char → List (Nat × List Char)
  | [] => if value.isEmpty then [] else [(start, value.reverse)]
  | c :: rest =>
    if c.isDigit then ofChars start value (10 * length + (c.toNat - '0'.toNat)) rest
    else if length = 0 then ofChars start (c :: value) 0 rest
    else (start, value.reverse) :: evaluated (start + length) fun next => ofChars next [c] 0 rest

theorem toList_read (start : Nat) (value : List Char) (length : Nat) (runs : Array (Nat × String))
    (cs : List Char) : (read start value length runs cs).toList =
      runs.toList ++ (ofChars start value length cs).map fun r => (r.1, String.ofList r.2) := by
  induction cs generalizing start value length runs with
  | nil =>
    rw [read, ofChars]
    split <;> simp
  | cons c rest ih =>
    rw [read, ofChars]
    split
    · exact ih ..
    · split
      · exact ih ..
      · rw [ih, evaluated_eq]
        simp

end Runs

namespace Category

def ofChars : List Char → Category
  | [a, b] => ofLetters a b
  | _ => cn

theorem ofName_ofList (l : List Char) : ofName (String.ofList l) = ofChars l := by
  rw [ofName, String.toList_ofList]
  rfl

/-- The first code points and the categories of the runs. -/
theorem toList_runs {cs : List Char} (h : Spells runLengths cs) :
    runs.toList = (Runs.ofChars 0 [] 0 cs).map fun r => (r.1, ofChars r.2) := by
  rw [runs, Array.toList_map, Runs.ofLines, Runs.toList_read, h.toList_join]
  simp [ofName_ofList]

end Category

end Text

/-- The decimal digits worked out from the characters of the table. -/
theorem CharClass.decimalDigits_of_spells {cs : List Char} {s : Text.Intervals}
    (h : Text.Spells Text.Category.runLengths cs)
    (hs : Text.Intervals.join (Text.Runs.intervals (· == Text.Category.nd) Text.Intervals.last
      ((Text.Runs.ofChars 0 [] 0 cs).map fun r => (r.1, Text.Category.ofChars r.2))) = s) :
    decimalDigits = s := by
  rw [decimalDigits, Text.Intervals.ofRuns, Text.Category.toList_runs h, hs]

/-- The decimal digits of all scripts. -/
theorem CharClass.decimalDigits_eq : decimalDigits =
    [(0x30, 0x39), (0x660, 0x669), (0x6F0, 0x6F9), (0x7C0, 0x7C9), (0x966, 0x96F), (0x9E6, 0x9EF),
    (0xA66, 0xA6F), (0xAE6, 0xAEF), (0xB66, 0xB6F), (0xBE6, 0xBEF), (0xC66, 0xC6F), (0xCE6,
    0xCEF), (0xD66, 0xD6F), (0xDE6, 0xDEF), (0xE50, 0xE59), (0xED0, 0xED9), (0xF20, 0xF29),
    (0x1040, 0x1049), (0x1090, 0x1099), (0x17E0, 0x17E9), (0x1810, 0x1819), (0x1946, 0x194F),
    (0x19D0, 0x19D9), (0x1A80, 0x1A89), (0x1A90, 0x1A99), (0x1B50, 0x1B59), (0x1BB0, 0x1BB9),
    (0x1C40, 0x1C49), (0x1C50, 0x1C59), (0xA620, 0xA629), (0xA8D0, 0xA8D9), (0xA900, 0xA909),
    (0xA9D0, 0xA9D9), (0xA9F0, 0xA9F9), (0xAA50, 0xAA59), (0xABF0, 0xABF9), (0xFF10, 0xFF19),
    (0x104A0, 0x104A9), (0x10D30, 0x10D39), (0x10D40, 0x10D49), (0x11066, 0x1106F), (0x110F0,
    0x110F9), (0x11136, 0x1113F), (0x111D0, 0x111D9), (0x112F0, 0x112F9), (0x11450, 0x11459),
    (0x114D0, 0x114D9), (0x11650, 0x11659), (0x116C0, 0x116C9), (0x116D0, 0x116E3), (0x11730,
    0x11739), (0x118E0, 0x118E9), (0x11950, 0x11959), (0x11BF0, 0x11BF9), (0x11C50, 0x11C59),
    (0x11D50, 0x11D59), (0x11DA0, 0x11DA9), (0x11F50, 0x11F59), (0x16130, 0x16139), (0x16A60,
    0x16A69), (0x16AC0, 0x16AC9), (0x16B50, 0x16B59), (0x16D70, 0x16D79), (0x1CCF0, 0x1CCF9),
    (0x1D7CE, 0x1D7FF), (0x1E140, 0x1E149), (0x1E2F0, 0x1E2F9), (0x1E4F0, 0x1E4F9), (0x1E5F1,
    0x1E5FA), (0x1E950, 0x1E959), (0x1FBF0, 0x1FBF9)] := by
  apply decimalDigits_of_spells
  · unfold Text.Category.runLengths
    dsimp only
    repeat' first | exact Text.Spells.nil | apply Text.Spells.cons (Eq.refl _)
  · decide +kernel

namespace Regex

open Text

/-- The class of the decimal digits takes less than eleven thousand bytes. -/
theorem classBytes_digit_le :
    classBytes (Intervals.characters (CharClass.digit false).intervals) ≤ 10700 := by
  rw [CharClass.intervals, if_neg Bool.false_ne_true, CharClass.decimalDigits_eq]
  decide +kernel

end Regex

end Rehearsal
