/-!
# Reading whole numbers

A written integer is an optional sign and one or more ASCII digits. It is read into
a range, and the first fault met from left to right is reported: a character that is
no digit, or a digit that takes the number out of the range.
-/

namespace Rehearsal

namespace Number

structure IntRange where
  lo : Int
  hi : Int
  deriving DecidableEq, Repr, Inhabited

namespace IntRange

def signed32 : IntRange := ⟨-2147483648, 2147483647⟩

def signed64 : IntRange := ⟨-9223372036854775808, 9223372036854775807⟩

def unsigned32 : IntRange := ⟨0, 4294967295⟩

def unsigned64 : IntRange := ⟨0, 18446744073709551615⟩

def contains (r : IntRange) (n : Int) : Bool := r.lo ≤ n && n ≤ r.hi

def narrow? (r : IntRange) (n : Int) : Option Int := if r.contains n then some n else none

theorem narrow?_eq_some_iff (r : IntRange) (n m : Int) :
    r.narrow? n = some m ↔ n = m ∧ r.contains n = true := by
  unfold narrow?
  split <;> simp_all

end IntRange

inductive IntFault where
  | empty
  | invalidDigit
  | tooLarge
  | tooSmall
  deriving DecidableEq, Repr, Inhabited

def IntFault.message : IntFault → String
  | empty => "cannot parse integer from empty string"
  | invalidDigit => "invalid digit found in string"
  | tooLarge => "number too large to fit in target type"
  | tooSmall => "number too small to fit in target type"

def digitValue (c : Char) : Nat := c.toNat - '0'.toNat

/-- Reads digits after the value `n`, upwards. -/
def readUp (r : IntRange) (n : Int) : List Char → Except IntFault Int
  | [] => .ok n
  | c :: cs =>
    if !c.isDigit then .error .invalidDigit
    else if r.hi < 10 * n + digitValue c then .error .tooLarge
    else readUp r (10 * n + digitValue c) cs

def readDown (r : IntRange) (n : Int) : List Char → Except IntFault Int
  | [] => .ok n
  | c :: cs =>
    if !c.isDigit then .error .invalidDigit
    else if 10 * n - digitValue c < r.lo then .error .tooSmall
    else readDown r (10 * n - digitValue c) cs

/-- Reads an integer. A range without negative numbers takes no minus sign. -/
def readInt (r : IntRange) : List Char → Except IntFault Int
  | [] => .error .empty
  | '+' :: cs => if cs.isEmpty then .error .invalidDigit else readUp r 0 cs
  | '-' :: cs =>
    if cs.isEmpty || !(r.lo < 0) then .error .invalidDigit else readDown r 0 cs
  | cs => readUp r 0 cs

def readInt? (r : IntRange) (cs : List Char) : Option Int := (readInt r cs).toOption

@[simp] theorem readUp_nil (r : IntRange) (n : Int) : readUp r n [] = .ok n := rfl

@[simp] theorem readDown_nil (r : IntRange) (n : Int) : readDown r n [] = .ok n := rfl

end Number

end Rehearsal
