/-!
# Splitting and joining

A list of characters is cut at every occurrence of a separator; joining the parts with the
separator gives the list back.
-/

namespace Rehearsal

namespace Text

/-- The parts of a list between separators; there is one more part than separators. -/
def splitOn (sep : Char) : List Char → List (List Char)
  | [] => [[]]
  | c :: cs =>
    if c = sep then [] :: splitOn sep cs
    else
      match splitOn sep cs with
      | [] => [[c]]
      | part :: rest => (c :: part) :: rest

def joinWith (sep : Char) : List (List Char) → List Char
  | [] => []
  | [part] => part
  | part :: rest => part ++ sep :: joinWith sep rest

theorem splitOn_ne_nil (sep : Char) (cs : List Char) : splitOn sep cs ≠ [] := by
  cases cs with
  | nil => simp [splitOn]
  | cons c cs =>
    unfold splitOn
    split
    · simp
    · split <;> simp

theorem joinWith_cons (sep : Char) (part : List Char) (rest : List (List Char))
    (h : rest ≠ []) : joinWith sep (part :: rest) = part ++ sep :: joinWith sep rest := by
  cases rest with
  | nil => exact absurd rfl h
  | cons a b => rfl

/-- Joining undoes splitting. -/
theorem joinWith_splitOn (sep : Char) (cs : List Char) : joinWith sep (splitOn sep cs) = cs := by
  induction cs with
  | nil => rfl
  | cons c cs ih =>
    unfold splitOn
    split
    · rename_i h
      rw [joinWith_cons _ _ _ (splitOn_ne_nil sep cs), ih, h]
      rfl
    · split
      · rename_i heq
        exact absurd heq (splitOn_ne_nil sep cs)
      · rename_i part rest heq
        rw [heq] at ih
        cases rest with
        | nil => simpa [joinWith] using ih
        | cons a b => simpa [joinWith] using ih

end Text

end Rehearsal
