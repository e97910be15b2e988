import Rehearsal.Proofs.Selection
import Rehearsal.Proofs.WellFormed.Filling

/-!
# Outlines and their scenarios

An outline has an entry for each row of each block of its examples, and `expand` makes one scenario
of each entry (`Outline.expand_completes`). `Template.Completes` says, without a word on how it is
done, of two texts that the second is the first completed: a hole whose name has a value gives way
to it, and a hole without one stays. What was put in belongs to neither the text before it nor the
text after it, so it is never taken for a hole.
-/

namespace Rehearsal

/-! ### Templates -/

namespace Template

/-- The second text is the first one with the values of its holes; `value` says which text belongs
to a name. -/
inductive Completed (value : String → String → Prop) : List Char → List Char → Prop where
  | nil : Completed value [] []
  | filled {cs name after out : List Char} {v : String} (hbegins : Begins name after cs)
      (hvalue : value (String.ofList name) v) (hrest : Completed value after out) :
      Completed value cs (v.toList ++ out)
  | kept {cs name after out : List Char} (hbegins : Begins name after cs)
      (hnone : ∀ v, ¬ value (String.ofList name) v) (hrest : Completed value after out) :
      Completed value cs ('<' :: (name ++ '>' :: out))
  | char {c : Char} {rest out : List Char} (hnone : ∀ name after, ¬ Begins name after (c :: rest))
      (hrest : Completed value rest out) : Completed value (c :: rest) (c :: out)

def Completes (value : String → String → Prop) (text text' : String) : Prop :=
  Completed value text.toList text'.toList

theorem pieces_of_begins {name after cs : List Char} (h : Begins name after cs) :
    pieces cs = .hole name :: pieces after := by
  cases cs with
  | nil => cases h.1
  | cons c rest =>
    obtain ⟨rfl, hfound⟩ := begins_cons_iff.1 h
    rw [pieces, if_pos rfl]
    split
    · rename_i name' after' hfound'
      rw [hfound, Option.some.injEq, Prod.mk.injEq] at hfound'
      rw [hfound'.1, hfound'.2]
    · rename_i hnone
      rw [hfound] at hnone
      cases hnone

theorem pieces_of_not_begins {c : Char} {rest : List Char}
    (h : ∀ name after, ¬ Begins name after (c :: rest)) :
    pieces (c :: rest) = .char c :: pieces rest := by
  rw [pieces]
  split
  · rename_i hc
    split
    · rename_i name after hfound
      exact absurd (begins_cons_iff.2 ⟨hc, hfound⟩) (h name after)
    · rfl
  · rfl

variable {values : String → Option String} {value : String → String → Prop}
  (hvalues : ∀ name v, values name = some v ↔ value name v)
include hvalues

/-- The scan completes a text, and there is no other way to do it. -/
theorem completed_iff {cs out : List Char} :
    Completed value cs out ↔ out = (pieces cs).flatMap (Piece.filled values) := by
  constructor
  · intro h
    induction h with
    | nil => rw [pieces_nil, List.flatMap_nil]
    | filled hbegins hvalue hrest ih =>
      rw [pieces_of_begins hbegins, List.flatMap_cons, Piece.filled, (hvalues _ _).2 hvalue, ih]
    | @kept cs name after out hbegins hnone hrest ih =>
      have hmissing : values (String.ofList name) = none := by
        rw [Option.eq_none_iff_forall_ne_some]
        exact fun v hv => hnone v ((hvalues _ v).1 hv)
      rw [pieces_of_begins hbegins, List.flatMap_cons, Piece.filled, hmissing, ih]
      simp [Piece.written]
    | char hnone hrest ih =>
      rw [pieces_of_not_begins hnone, List.flatMap_cons, ih]
      rfl
  · rintro rfl
    fun_induction pieces cs with
    | case1 => exact .nil
    | case2 rest name after hfound ih =>
      have hbegins : Begins name after ('<' :: rest) := begins_cons_iff.2 ⟨rfl, hfound⟩
      rw [List.flatMap_cons, Piece.filled]
      cases hv : values (String.ofList name) with
      | some v => exact .filled hbegins ((hvalues _ v).1 hv) ih
      | none =>
        have hnone : ∀ v, ¬ value (String.ofList name) v := by
          intro v hvalue
          rw [(hvalues _ v).2 hvalue] at hv
          cases hv
        have hkept := Completed.kept hbegins hnone ih
        simpa [Piece.written] using hkept
    | case3 rest hnone ih =>
      refine .char (fun name after hbegins => ?_) ih
      simp [begins_cons_iff, hnone] at hbegins
    | case4 c rest hc ih =>
      exact .char (fun name after hbegins => hc (begins_cons_iff.1 hbegins).1) ih

theorem completes_fill (text : String) : Completes value text (fill values text) := by
  rw [Completes, fill, String.toList_ofList]
  exact (completed_iff hvalues).2 rfl

-- what stands in the place of `<n>` is not looked at again
example : fill (fun name => List.lookup name [("n", "<m>"), ("m", "x")]) "< <<n> <k> <m>" =
    "< <<m> <k> x" := by cbv

end Template

/-! ### Steps -/

variable {values : String → Option String} {value : String → String → Prop}

/-- Headings and cells are completed one by one; nothing else changes. -/
structure Table.Completes (value : String → String → Prop) (t t' : Table) : Prop where
  headings : List.Forall₂ (Template.Completes value) t.headings t'.headings
  rows : List.Forall₂ (fun row row' =>
    List.Forall₂ (Template.Completes value) row.cells row'.cells ∧ row'.line = row.line)
    t.rows t'.rows
  line : t'.line = t.line

inductive StepArgument.Completes (value : String → String → Prop) :
    StepArgument → StepArgument → Prop where
  | table {t t' : Table} (h : t.Completes value t') : Completes value (.table t) (.table t')
  | docString {d d' : DocString} (hcontent : Template.Completes value d.content d'.content)
      (htype : d'.contentType = d.contentType) (hline : d'.line = d.line) :
      Completes value (.docString d) (.docString d')

/-- The text of the step and what stands below it are completed; nothing else changes. -/
structure Step.Completes (value : String → String → Prop) (s s' : Step) : Prop where
  keyword : s'.keyword = s.keyword
  keywordClass : s'.keywordClass = s.keywordClass
  stepType : s'.stepType = s.stepType
  text : Template.Completes value s.text s'.text
  argument : Option.Rel (StepArgument.Completes value) s.argument s'.argument
  line : s'.line = s.line

section Fill

variable (hvalues : ∀ name v, values name = some v ↔ value name v)
include hvalues

theorem Template.forall₂_fill (texts : List String) :
    List.Forall₂ (Completes value) texts (texts.map (fill values)) := by
  rw [List.forall₂_map_right_iff, List.forall₂_same]
  exact fun text _ => completes_fill hvalues text

theorem Table.completes_fill (t : Table) : t.Completes value (t.fill values) where
  headings := Template.forall₂_fill hvalues t.headings
  rows := by
    change List.Forall₂ _ t.rows (t.rows.map _)
    rw [List.forall₂_map_right_iff, List.forall₂_same]
    exact fun row _ => ⟨Template.forall₂_fill hvalues row.cells, rfl⟩
  line := rfl

theorem StepArgument.completes_fill (a : StepArgument) : a.Completes value (a.fill values) := by
  cases a with
  | table t => exact .table (t.completes_fill hvalues)
  | docString d => exact .docString (Template.completes_fill hvalues d.content) rfl rfl

theorem Step.completes_fill (s : Step) : s.Completes value (s.fill values) where
  keyword := rfl
  keywordClass := rfl
  stepType := rfl
  text := Template.completes_fill hvalues s.text
  argument := by
    change Option.Rel _ s.argument (s.argument.map _)
    cases s.argument with
    | none => exact .none
    | some a => exact .some (a.completes_fill hvalues)
  line := rfl

end Fill

/-! ### Cells -/

/-- The cell stands in the row under the heading, in the last column with that heading in which the
row has a cell. -/
def Table.LastUnder (t : Table) (row : TableRow) (heading cell : String) : Prop :=
  ∃ i : Nat, t.headings[i]? = some heading ∧ row.cells[i]? = some cell ∧
    ∀ j, i < j → t.headings[j]? = some heading → row.cells[j]? = none

namespace Table

theorem lastPaired?_eq_none_iff {heading : String} {ps : List (String × String)} :
    lastPaired? heading ps = none ↔ ∀ p ∈ ps, p.1 ≠ heading := by
  induction ps with
  | nil => simp
  | cons p rest ih =>
    rw [lastPaired?, List.forall_mem_cons, ← ih]
    cases lastPaired? heading rest <;> simp

/-- Of the pairs with a heading the last one is found. -/
theorem exists_of_lastPaired? {heading cell : String} {ps : List (String × String)}
    (h : lastPaired? heading ps = some cell) :
    ∃ i : Nat, ps[i]? = some (heading, cell) ∧ ∀ j p, i < j → ps[j]? = some p → p.1 ≠ heading := by
  induction ps with
  | nil => cases h
  | cons p rest ih =>
    rw [lastPaired?] at h
    split at h
    · rename_i found hfound
      obtain rfl := Option.some.inj h
      obtain ⟨i, hi, hlast⟩ := ih hfound
      refine ⟨i + 1, hi, fun j q hij hq => ?_⟩
      obtain ⟨j, rfl⟩ := Nat.exists_eq_add_one_of_ne_zero (Nat.ne_zero_of_lt hij)
      exact hlast j q (Nat.lt_of_succ_lt_succ hij) hq
    · rename_i hnone
      split at h
      · rename_i hheading
        obtain rfl := Option.some.inj h
        refine ⟨0, by simp [← hheading], fun j q hj hq => ?_⟩
        obtain ⟨j, rfl⟩ := Nat.exists_eq_add_one_of_ne_zero (Nat.ne_zero_of_lt hj)
        exact lastPaired?_eq_none_iff.1 hnone q (List.mem_of_getElem? hq)
      · cases h

theorem getElem?_pairs_eq_some_iff (t : Table) (row : TableRow) (i : Nat) (heading cell : String) :
    (t.pairs row)[i]? = some (heading, cell) ↔
      t.headings[i]? = some heading ∧ row.cells[i]? = some cell := by
  rw [pairs, List.getElem?_zip_eq_some]

theorem LastUnder.unique {t : Table} {row : TableRow} {heading cell cell' : String}
    (h : t.LastUnder row heading cell) (h' : t.LastUnder row heading cell') : cell = cell' := by
  obtain ⟨i, hi, hcell, hlast⟩ := h
  obtain ⟨j, hj, hcell', hlast'⟩ := h'
  rcases Nat.lt_trichotomy i j with hij | rfl | hij
  · rw [hlast j hij hj] at hcell'
    cases hcell'
  · rw [hcell] at hcell'
    exact Option.some.inj hcell'
  · rw [hlast' i hij hi] at hcell
    cases hcell

theorem lastUnder_of_lastPaired? {t : Table} {row : TableRow} {heading cell : String}
    (h : lastPaired? heading (t.pairs row) = some cell) : t.LastUnder row heading cell := by
  obtain ⟨i, hi, hlast⟩ := exists_of_lastPaired? h
  obtain ⟨hheading, hcell⟩ := (t.getElem?_pairs_eq_some_iff row i heading cell).1 hi
  refine ⟨i, hheading, hcell, fun j hij hj => ?_⟩
  rw [Option.eq_none_iff_forall_ne_some]
  exact fun c hc => hlast j (heading, c) hij
    ((t.getElem?_pairs_eq_some_iff row j heading c).2 ⟨hj, hc⟩) rfl

/-- The cell that is looked up for a hole is the last one under its name. -/
theorem lastPaired?_pairs_eq_some_iff (t : Table) (row : TableRow) (heading cell : String) :
    lastPaired? heading (t.pairs row) = some cell ↔ t.LastUnder row heading cell := by
  refine ⟨lastUnder_of_lastPaired?, fun h => ?_⟩
  cases hfound : lastPaired? heading (t.pairs row) with
  | some found => rw [(lastUnder_of_lastPaired? hfound).unique h]
  | none =>
    obtain ⟨i, hi, hcell, -⟩ := h
    have hmem :=
      List.mem_of_getElem? ((t.getElem?_pairs_eq_some_iff row i heading cell).2 ⟨hi, hcell⟩)
    exact absurd rfl (lastPaired?_eq_none_iff.1 hfound _ hmem)

end Table

/-! ### Entries -/

/-- A row of the examples of an outline, with its block and with the places of both. -/
structure Outline.Entry where
  block : Nat
  examples : Examples
  index : Nat
  row : TableRow

namespace Outline

def Entry.Of (o : Outline) (x : Entry) : Prop :=
  o.examples[x.block]? = some x.examples ∧ x.examples.table.rows[x.index]? = some x.row

/-- Blocks come in order, and so do the rows of a block. -/
def Entry.Before (x y : Entry) : Prop :=
  x.block < y.block ∨ x.block = y.block ∧ x.index < y.index

def entries (o : Outline) : List Entry :=
  (o.examples.mapIdx fun block e =>
    e.table.rows.mapIdx fun index row => ⟨block, e, index, row⟩).flatten

theorem mem_entries_iff (o : Outline) (x : Entry) : x ∈ o.entries ↔ x.Of o := by
  obtain ⟨block, e, index, row⟩ := x
  simp only [entries, Entry.Of, List.mem_flatten, List.mem_mapIdx, List.getElem?_eq_some_iff]
  constructor
  · rintro ⟨_, ⟨i, hi, rfl⟩, hmem⟩
    obtain ⟨j, hj, heq⟩ := List.mem_mapIdx.1 hmem
    cases heq
    exact ⟨⟨hi, rfl⟩, hj, rfl⟩
  · rintro ⟨⟨hblock, rfl⟩, hindex, rfl⟩
    exact ⟨_, ⟨block, hblock, rfl⟩, List.mem_mapIdx.2 ⟨index, hindex, rfl⟩⟩

theorem pairwise_mapIdx {R : β → β → Prop} {xs : List α} {f : Nat → α → β}
    (h : ∀ i j, ∀ a ∈ xs, ∀ b ∈ xs, i < j → R (f i a) (f j b)) : (xs.mapIdx f).Pairwise R := by
  rw [List.pairwise_iff_getElem]
  intro i j hi hj hij
  rw [List.getElem_mapIdx, List.getElem_mapIdx]
  exact h i j _ (List.getElem_mem _) _ (List.getElem_mem _) hij

theorem pairwise_entries (o : Outline) : o.entries.Pairwise Entry.Before := by
  rw [entries, List.pairwise_flatten]
  constructor
  · intro xs hxs
    obtain ⟨block, hblock, rfl⟩ := List.mem_mapIdx.1 hxs
    exact pairwise_mapIdx fun i j a _ b _ hij => .inr ⟨rfl, hij⟩
  · refine pairwise_mapIdx fun i j a _ b _ hij x hx y hy => ?_
    obtain ⟨k, hk, rfl⟩ := List.mem_mapIdx.1 hx
    obtain ⟨l, hl, rfl⟩ := List.mem_mapIdx.1 hy
    exact .inl hij

theorem expand_eq_map_entries (o : Outline) :
    o.expand = o.entries.map fun x => o.scenarioOf x.examples x.block x.row x.index := by
  rw [expand, entries, List.map_flatten, map_mapIdx]
  simp only [scenariosOf, map_mapIdx]

end Outline

/-- The scenario is the outline completed with the cells of the entry. -/
structure Scenario.Completes (o : Outline) (x : Outline.Entry) (sc : Scenario) : Prop where
  origin : sc.origin = some ⟨o.line, x.block, x.index⟩
  line : sc.line = x.row.line
  keyword : sc.keyword = o.keyword
  tags : ∀ n, n ∈ sc.tags.names ↔ n ∈ o.tags.names ∨ n ∈ x.examples.tags.names
  name : ∃ filled, Template.Completes (x.examples.table.LastUnder x.row) o.name filled ∧
    sc.name = filled ++ " -- @" ++ toString (x.block + 1) ++ "." ++ toString (x.index + 1) ++
      if x.examples.name = "" then "" else " " ++ x.examples.name
  steps : List.Forall₂ (Step.Completes (x.examples.table.LastUnder x.row)) o.steps sc.steps

namespace Outline

theorem completes_scenarioOf (o : Outline) (x : Entry) :
    Scenario.Completes o x (o.scenarioOf x.examples x.block x.row x.index) where
  origin := rfl
  line := rfl
  keyword := rfl
  tags n := by
    change n ∈ (TagSet.effective [o.tags, x.examples.tags]).names ↔ _
    rw [TagSet.mem_names_effective]
    simp
  name := ⟨_, Template.completes_fill (x.examples.table.lastPaired?_pairs_eq_some_iff x.row) o.name,
    rfl⟩
  steps := by
    change List.Forall₂ _ o.steps (o.steps.map _)
    rw [List.forall₂_map_right_iff, List.forall₂_same]
    exact fun s _ => s.completes_fill (x.examples.table.lastPaired?_pairs_eq_some_iff x.row)

/-- An outline expands to one scenario for each row of each block of its examples, block by block
and row by row, and each of them is the outline completed with the cells of its row. -/
theorem expand_completes (o : Outline) :
    (∀ x, x ∈ o.entries ↔ x.Of o) ∧ o.entries.Pairwise Entry.Before ∧
      List.Forall₂ (Scenario.Completes o) o.entries o.expand := by
  refine ⟨o.mem_entries_iff, o.pairwise_entries, ?_⟩
  rw [expand_eq_map_entries, List.forall₂_map_right_iff, List.forall₂_same]
  exact fun x _ => o.completes_scenarioOf x

end Outline

end Rehearsal
