import Rehearsal.Text.Split

/-!
# Lines

A text is made of lines, each of which ends with a line feed, before which a carriage
return may stand. The last line may lack its end.
-/

namespace Rehearsal

namespace Text

def dropReturn (line : List Char) : List Char :=
  match line.reverse with
  | '\r' :: rest => rest.reverse
  | _ => line

/-- The lines, given the parts between line feeds. -/
def linesOfParts : List (List Char) → List (List Char)
  | [] => []
  | [last] => if last.isEmpty then [] else [last]
  | part :: rest => dropReturn part :: linesOfParts rest

def lines (s : String) : List String :=
  (linesOfParts (splitOn '\n' s.toList)).map String.ofList

theorem linesOfParts_cons (part : List Char) (rest : List (List Char)) (h : rest ≠ []) :
    linesOfParts (part :: rest) = dropReturn part :: linesOfParts rest := by
  cases rest with
  | nil => exact absurd rfl h
  | cons a b => rfl

end Text

end Rehearsal
