/-!
# Offsets

Positions in texts are reported in bytes of the UTF-8 encoding.
-/

namespace Rehearsal

namespace Text

def byteLength : List Char → Nat
  | [] => 0
  | c :: cs => c.utf8Size + byteLength cs

/-- The number of bytes before the character at index `i`. -/
def byteOffset (cs : List Char) (i : Nat) : Nat := byteLength (cs.take i)

@[simp] theorem byteLength_nil : byteLength [] = 0 := rfl

@[simp] theorem byteLength_cons (c : Char) (cs : List Char) :
    byteLength (c :: cs) = c.utf8Size + byteLength cs := rfl

theorem byteLength_append (as bs : List Char) :
    byteLength (as ++ bs) = byteLength as + byteLength bs := by
  induction as with
  | nil => simp
  | cons c as ih => simp [ih, Nat.add_assoc]

/-- The characters from index `i` to before index `j`. -/
def slice (cs : List Char) (i j : Nat) : List Char := (cs.drop i).take (j - i)

end Text

end Rehearsal
