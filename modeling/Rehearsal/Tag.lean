import Rehearsal.Text.Blank

/-!
# Tags

A tag is a name attached to a node of a document, together with the line it was
written on. The name is what a tag is known by: `@fast` and `fast` are the same
tag, and two tags of one name are the same tag wherever they were written. A
`TagSet` therefore holds each name once, in the order of the names.

Two ways of adding a tag differ only in the line that is kept for a name already
present: `TagSet.insert` keeps the older tag, `TagSet.replace` the newer one.
-/

namespace Rehearsal

def dropSigils (cs : List Char) : List Char := cs.dropWhile (· == '@')

/-- The name of a tag as written: blanks at the ends and leading `@` do not
belong to it. -/
def tagName (text : String) : String :=
  String.ofList (dropSigils (Text.trimChars text.toList))

structure Tag where
  name : String
  line : Nat
  deriving DecidableEq, Repr, Inhabited

namespace Tag

def written (text : String) (line : Nat) : Tag := ⟨tagName text, line⟩

def ofText (text : String) : Tag := Tag.written text 0

/-- Tags are told apart by their names only. -/
def same (a b : Tag) : Bool := a.name == b.name

def order (a b : Tag) : Ordering := compare a.name b.name

end Tag

/-- Puts `t` into a list ordered by name; `keep` says which of two tags with one
name stays, given the older and the newer one. -/
def insertByName (keep : Tag → Tag → Tag) (t : Tag) : List Tag → List Tag
  | [] => [t]
  | a :: rest =>
    if t.name < a.name then t :: a :: rest
    else if t.name = a.name then keep a t :: rest
    else a :: insertByName keep t rest

/-- The tags of one node, each name once and in the order of the names. -/
structure TagSet where
  tags : List Tag
  deriving DecidableEq, Repr, Inhabited

namespace TagSet

def empty : TagSet := ⟨[]⟩

/-- Adds a tag; a tag already present under its name stays. -/
def insert (s : TagSet) (t : Tag) : TagSet := ⟨insertByName (fun old _ => old) t s.tags⟩

/-- Adds a tag; a tag already present under its name gives way. -/
def replace (s : TagSet) (t : Tag) : TagSet := ⟨insertByName (fun _ new => new) t s.tags⟩

def ofList (ts : List Tag) : TagSet := ts.foldl insert empty

def names (s : TagSet) : List String := s.tags.map (·.name)

def contains (s : TagSet) (name : String) : Bool := s.tags.any (·.name == name)

/-- The tags that hold for a node: its own and those of all nodes around it, the
outermost first. For a name that occurs several times the last tag is taken. -/
def effective (lineage : List TagSet) : TagSet :=
  (lineage.flatMap (·.tags)).foldl replace empty

@[simp] theorem names_empty : empty.names = [] := rfl

end TagSet

/-- The names after adding `t` are the names before and the name of `t`. -/
theorem mem_names_insertByName (keep : Tag → Tag → Tag)
    (hkeep : ∀ a b : Tag, a.name = b.name → (keep a b).name = a.name)
    (t : Tag) (ts : List Tag) (n : String) :
    n ∈ (insertByName keep t ts).map (·.name) ↔ n = t.name ∨ n ∈ ts.map (·.name) := by
  induction ts with
  | nil => simp [insertByName]
  | cons a rest ih =>
    unfold insertByName
    split
    · simp
    · split
      · rename_i h
        simp [hkeep a t h.symm, h]
      · simp [ih]
        constructor
        · rintro (h | h | h) <;> simp [h]
        · rintro (h | h | h) <;> simp [h]

end Rehearsal
