/-!
# Tables

A table has a row of headings and rows of cells. A cell is looked up by the first column
with a heading; the records of a table pair the headings of each row with its cells, where
of several columns with one heading the last one counts.
-/

namespace Rehearsal

structure TableRow where
  cells : List String
  line : Nat
  deriving DecidableEq, Repr, Inhabited

structure Table where
  headings : List String
  rows : List TableRow
  line : Nat
  deriving DecidableEq, Repr, Inhabited

namespace Table

def ofHeadings (headings : List String) (line : Nat) : Table := ⟨headings, [], line⟩

/-- The line of a further row: the line after the last one. -/
def nextLine (t : Table) : Nat :=
  match t.rows.getLast? with
  | some row => row.line + 1
  | none => t.line + 1

def addRow (t : Table) (cells : List String) : Table :=
  { t with rows := t.rows ++ [⟨cells, t.nextLine⟩] }

/-- The first column with the heading. -/
def columnIndex? (t : Table) (heading : String) : Option Nat :=
  t.headings.findIdx? (· == heading)

def cell? (t : Table) (row : TableRow) (heading : String) : Option String :=
  (t.columnIndex? heading).bind fun i => row.cells[i]?

/-- The text paired last with a heading. -/
def lastPaired? (heading : String) : List (String × String) → Option String
  | [] => none
  | (h, cell) :: rest =>
    match lastPaired? heading rest with
    | some found => some found
    | none => if h = heading then some cell else none

/-- Headings paired with cells, as far as both reach. -/
def pairs (t : Table) (row : TableRow) : List (String × String) := t.headings.zip row.cells

/-- Puts a pair into a list that holds every heading once; a pair already present for the
heading gives way, in its place. -/
def putPair (p : String × String) : List (String × String) → List (String × String)
  | [] => [p]
  | q :: rest => if q.1 = p.1 then p :: rest else q :: putPair p rest

/-- The record of a row: every heading once, with its cell. -/
def record (t : Table) (row : TableRow) : List (String × String) :=
  (t.pairs row).foldl (fun acc p => putPair p acc) []

def records (t : Table) : List (List (String × String)) := t.rows.map t.record

@[simp] theorem lastPaired?_nil (heading : String) : lastPaired? heading [] = none := rfl

/-- Looking up a heading after a pair was put gives the new cell or the old one. -/
theorem lookup_putPair (p : String × String) (ps : List (String × String)) (h : String) :
    (putPair p ps).lookup h = if h = p.1 then some p.2 else ps.lookup h := by
  induction ps with
  | nil =>
    rw [putPair, List.lookup_cons]
    by_cases hp : h = p.1
    · simp [hp]
    · simp [hp, beq_eq_false_iff_ne.mpr hp]
  | cons q rest ih =>
    unfold putPair
    by_cases hq : q.1 = p.1
    · rw [if_pos hq, List.lookup_cons, List.lookup_cons, hq]
      by_cases hp : h = p.1
      · simp [hp]
      · simp [hp, beq_eq_false_iff_ne.mpr hp]
    · rw [if_neg hq, List.lookup_cons, List.lookup_cons, ih]
      by_cases hp : h = q.1
      · simp [hp, hq]
      · simp [beq_eq_false_iff_ne.mpr hp]

end Table

end Rehearsal
