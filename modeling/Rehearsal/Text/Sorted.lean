/-!
# Sorted texts

Lists of texts in order, each text once.
-/

namespace Rehearsal

namespace Text

/-- Puts a text into a sorted list, unless it is there. -/
def insertSorted (s : String) : List String → List String
  | [] => [s]
  | t :: rest =>
    if s < t then s :: t :: rest
    else if s = t then t :: rest
    else t :: insertSorted s rest

def sorted (ss : List String) : List String := ss.foldr insertSorted []

theorem mem_insertSorted (s x : String) (ts : List String) :
    x ∈ insertSorted s ts ↔ x = s ∨ x ∈ ts := by
  induction ts with
  | nil => simp [insertSorted]
  | cons t rest ih =>
    unfold insertSorted
    split
    · simp
    · split
      · rename_i h
        simp [h]
      · simp only [List.mem_cons, ih]
        constructor
        · rintro (h | h | h) <;> simp [h]
        · rintro (h | h | h) <;> simp [h]

/-- Sorting keeps the texts. -/
theorem mem_sorted (x : String) (ss : List String) : x ∈ sorted ss ↔ x ∈ ss := by
  induction ss with
  | nil => simp [sorted]
  | cons s rest ih =>
    have : sorted (s :: rest) = insertSorted s (sorted rest) := rfl
    rw [this, mem_insertSorted, ih]
    simp

end Text

end Rehearsal
