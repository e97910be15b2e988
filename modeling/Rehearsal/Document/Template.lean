/-!
# Templates

A template is a text with holes. A hole is `<`, a name of one or more characters other
than `<`, `>` and line feed, and `>`; every other character stands for itself. The holes
are found in one scan from left to right, and what is filled in is not scanned again.
-/

namespace Rehearsal

namespace Template

inductive Piece where
  | char (c : Char)
  | hole (name : List Char)
  deriving DecidableEq, Repr, Inhabited

def isNameChar (c : Char) : Bool := c != '<' && c != '>' && c != '\n'

/-- The name of the hole whose `<` was just read, and the text after it. -/
def hole? (cs : List Char) : Option (List Char × List Char) :=
  let name := cs.takeWhile isNameChar
  match cs.dropWhile isNameChar with
  | '>' :: rest => if name.isEmpty then none else some (name, rest)
  | _ => none

theorem length_of_hole? {cs name rest : List Char} (h : hole? cs = some (name, rest)) :
    rest.length < cs.length := by
  simp only [hole?] at h
  split at h
  · rename_i after heq
    have hle := (List.dropWhile_suffix isNameChar (l := cs)).length_le
    rw [heq] at hle
    split at h
    · simp at h
    · simp only [Option.some.injEq, Prod.mk.injEq] at h
      obtain ⟨_, rfl⟩ := h
      simp at hle
      omega
  · simp at h

def pieces (cs : List Char) : List Piece :=
  match cs with
  | [] => []
  | c :: rest =>
    if c = '<' then
      match _h : hole? rest with
      | some (name, after) => .hole name :: pieces after
      | none => .char c :: pieces rest
    else .char c :: pieces rest
termination_by cs.length
decreasing_by
  · have := length_of_hole? _h
    simp
    omega
  · simp
  · simp

def Piece.written : Piece → List Char
  | char c => [c]
  | hole name => '<' :: name ++ ['>']

/-- A piece with what its hole is filled with; a hole without a value stays. -/
def Piece.filled (values : String → Option String) : Piece → List Char
  | char c => [c]
  | hole name =>
    match values (String.ofList name) with
    | some v => v.toList
    | none => (hole name).written

def holes (text : String) : List String :=
  (pieces text.toList).filterMap fun p =>
    match p with
    | .char _ => none
    | .hole name => some (String.ofList name)

def fill (values : String → Option String) (text : String) : String :=
  String.ofList ((pieces text.toList).flatMap (Piece.filled values))

@[simp] theorem pieces_nil : pieces [] = [] := by
  unfold pieces
  rfl

end Template

end Rehearsal
