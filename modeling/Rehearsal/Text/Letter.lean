import Rehearsal.Text.Blank
import Rehearsal.Text.Category
import Rehearsal.Text.Property

/-!
# Classes of characters

Letters, digits and word characters as the sixteenth edition of the Unicode character
database has them: `isAlphabetic` and `isWord` are derived properties, built from the
general category and listed properties.
-/

namespace Rehearsal

namespace Text

/-- Is this the category of a letter or of a letter-like number? -/
def Category.isLetter : Category → Bool
  | lu | ll | lt | lm | lo | nl => true
  | _ => false

def Category.isMark : Category → Bool
  | mn | mc | me => true
  | _ => false

def isAsciiAlphanumeric (c : Char) : Bool := c.isAlpha || c.isDigit

def isAlphabetic (c : Char) : Bool :=
  if c.toNat < 128 then c.isAlpha
  else (Category.of c).isLetter || Property.otherAlphabetic.holds c

def isDecimalDigit (c : Char) : Bool :=
  if c.toNat < 128 then c.isDigit else Category.of c == .nd

/-- The word characters: letters, marks, decimal digits, connecting punctuation and
the two join controls. -/
def isWord (c : Char) : Bool :=
  if c.toNat < 128 then isAsciiAlphanumeric c || c == '_'
  else isAlphabetic c || (Category.of c).isMark || Category.of c == .nd ||
    Category.of c == .pc || c.toNat == 0x200C || c.toNat == 0x200D

end Text

end Rehearsal
