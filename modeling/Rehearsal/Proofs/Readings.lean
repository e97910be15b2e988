import Mathlib.Data.List.NodupEquivFin
import Rehearsal.Proofs.Expansion

/-!
# Three readings of a table

A cell is read by its heading in three ways: `Table.cell?` goes through the first column with the
heading, the records pair headings with cells, and an outline puts the cell in the place of a hole.
The record of a row and the scenario made of it always agree (`Table.lookup_record`), and what they
read is the last cell under the heading. `Table.cell?` reads the first one, so all three agree
exactly if these two cells are equal, and `Table.repeated_heading_splits_readings` is a table in
which they are not.
-/

namespace Rehearsal

/-! ### Holes inside of texts -/

namespace Template

/-- The text may be the name of a hole. -/
def CanName (name : String) : Prop :=
  name ≠ "" ∧ ∀ c ∈ name.toList, c ≠ '<' ∧ c ≠ '>' ∧ c ≠ '\n'

theorem isNameChar_iff (c : Char) : isNameChar c = true ↔ c ≠ '<' ∧ c ≠ '>' ∧ c ≠ '\n' := by
  simp [isNameChar, and_assoc]

theorem CanName.begins {name : String} (h : CanName name) (after : List Char) :
    Begins name.toList after ('<' :: (name.toList ++ '>' :: after)) :=
  ⟨rfl, mt String.toList_eq_nil_iff.1 h.1, fun c hc => (isNameChar_iff c).2 (h.2 c hc)⟩

/-- A name holds no `<`, so no hole reaches over the next one. -/
theorem hole?_append {cs : List Char} (h : hole? cs = none) (more : List Char) :
    hole? (cs ++ '<' :: more) = none := by
  rw [Option.eq_none_iff_forall_ne_some]
  rintro ⟨name, after⟩ hfound
  obtain ⟨hsplit, hne, hname⟩ := hole?_eq_some_iff.1 hfound
  rcases List.append_eq_append_iff.1 hsplit with ⟨left, hover, hrest⟩ | ⟨left, hinside, hrest⟩
  · cases left with
    | nil => simp at hrest
    | cons c left =>
      obtain ⟨rfl, -⟩ := List.cons.inj hrest
      exact ((isNameChar_iff '<').1 (hname '<' (by simp [hover]))).1 rfl
  · cases left with
    | nil => simp at hrest
    | cons c left =>
      obtain ⟨rfl, -⟩ := List.cons.inj hrest
      rw [hole?_eq_some_iff.2 ⟨hinside, hne, hname⟩] at h
      cases h

/-- A hole divides a text into what stands before it and what stands after it. -/
theorem pieces_append_hole {name : String} (hname : CanName name) (before after : List Char) :
    pieces (before ++ '<' :: (name.toList ++ '>' :: after)) =
      pieces before ++ .hole name.toList :: pieces after := by
  fun_induction pieces before with
  | case1 => exact pieces_of_begins (hname.begins after)
  | case2 rest found left hfound ih =>
    obtain ⟨rfl, hne, hchars⟩ := hole?_eq_some_iff.1 hfound
    have hbegins : Begins found (left ++ '<' :: (name.toList ++ '>' :: after))
        ('<' :: (found ++ '>' :: left) ++ '<' :: (name.toList ++ '>' :: after)) :=
      ⟨by simp, hne, hchars⟩
    rw [pieces_of_begins hbegins, ih, List.cons_append]
  | case3 rest hnone ih =>
    rw [List.cons_append, pieces_of_not_begins, ih, List.cons_append]
    intro found left hbegins
    rw [begins_cons_iff, hole?_append hnone] at hbegins
    cases hbegins.2
  | case4 c rest hc ih =>
    rw [List.cons_append, pieces_of_not_begins, ih, List.cons_append]
    exact fun found left hbegins => hc (begins_cons_iff.1 hbegins).1

/-- The value of a name stands in the place of each hole with the name, and what stands before and
after the hole is filled in on its own. -/
theorem fill_append_hole {values : String → Option String} {name value : String}
    (hname : CanName name) (hvalue : values name = some value) (before after : String) :
    fill values (before ++ "<" ++ name ++ ">" ++ after) =
      fill values before ++ value ++ fill values after := by
  have htext : (before ++ "<" ++ name ++ ">" ++ after).toList =
      before.toList ++ '<' :: (name.toList ++ '>' :: after.toList) := by simp
  rw [← String.toList_inj]
  simp [fill, htext, pieces_append_hole hname, Piece.filled, hvalue]

end Template

/-! ### The texts of a step -/

def Step.texts (s : Step) : List String :=
  s.text :: match s.argument with
    | none => []
    | some (.table t) => t.headings ++ t.rows.flatMap (·.cells)
    | some (.docString d) => [d.content]

theorem Step.texts_fill (values : String → Option String) (s : Step) :
    (s.fill values).texts = s.texts.map (Template.fill values) := by
  rcases s with ⟨keyword, keywordClass, stepType, text, _ | t | d, line⟩
  · rfl
  · simp [texts, fill, StepArgument.fill, Table.fill, List.map_flatMap, List.flatMap_map]
  · rfl

/-! ### Cells -/

namespace Table

/-- The cell stands in the row under the heading, in the first column with that heading. -/
def FirstUnder (t : Table) (row : TableRow) (heading cell : String) : Prop :=
  ∃ i : ℕ, t.headings[i]? = some heading ∧ row.cells[i]? = some cell ∧
    ∀ j, j < i → t.headings[j]? ≠ some heading

theorem columnIndex?_eq_some_iff (t : Table) (heading : String) (i : ℕ) :
    t.columnIndex? heading = some i ↔
      t.headings[i]? = some heading ∧ ∀ j, j < i → t.headings[j]? ≠ some heading := by
  rw [columnIndex?, List.findIdx?_eq_some_iff_getElem]
  constructor
  · rintro ⟨hi, hheading, hfirst⟩
    refine ⟨by simpa [List.getElem?_eq_getElem hi] using hheading, fun j hj hsame => ?_⟩
    have hne := hfirst j hj
    rw [List.getElem?_eq_getElem (Nat.lt_trans hj hi), Option.some.injEq] at hsame
    simp [hsame] at hne
  · rintro ⟨hheading, hfirst⟩
    obtain ⟨hi, heq⟩ := List.getElem?_eq_some_iff.1 hheading
    refine ⟨hi, by simpa using heq, fun j hj => ?_⟩
    have hne := hfirst j hj
    rw [List.getElem?_eq_getElem (Nat.lt_trans hj hi)] at hne
    simpa using hne

theorem cell?_eq_some_iff (t : Table) (row : TableRow) (heading cell : String) :
    t.cell? row heading = some cell ↔ t.FirstUnder row heading cell := by
  simp only [cell?, Option.bind_eq_some_iff, columnIndex?_eq_some_iff, FirstUnder]
  exact exists_congr fun i => ⟨fun ⟨⟨hheading, hfirst⟩, hcell⟩ => ⟨hheading, hcell, hfirst⟩,
    fun ⟨hheading, hcell, hfirst⟩ => ⟨⟨hheading, hfirst⟩, hcell⟩⟩

/-- Of the pairs put into a record the last one with a heading is kept. -/
theorem lookup_foldl_putPair (ps acc : List (String × String)) (heading : String) :
    (ps.foldl (fun acc p => putPair p acc) acc).lookup heading =
      (lastPaired? heading ps).or (acc.lookup heading) := by
  induction ps generalizing acc with
  | nil => rfl
  | cons p rest ih =>
    rw [List.foldl_cons, ih, lookup_putPair, lastPaired?]
    cases lastPaired? heading rest with
    | some found => rfl
    | none =>
      by_cases hheading : p.1 = heading
      · simp [hheading]
      · have hne : ¬ heading = p.1 := fun heq => hheading heq.symm
        simp [hheading, hne]

/-- The record of a row has the cells that an outline fills in. -/
theorem lookup_record (t : Table) (row : TableRow) (heading : String) :
    (t.record row).lookup heading = lastPaired? heading (t.pairs row) := by
  rw [record, lookup_foldl_putPair, List.lookup_nil, Option.or_none]

/-- In a row as wide as the headings, a heading has a first cell. -/
theorem exists_firstUnder {t : Table} {row : TableRow}
    (hwide : row.cells.length = t.headings.length) {heading : String}
    (h : heading ∈ t.headings) : ∃ cell, t.FirstUnder row heading cell := by
  have hsome : (t.columnIndex? heading).isSome = true := by
    rw [← Bool.not_eq_false, Option.isSome_eq_false_iff, t.columnIndex?_isNone, decide_eq_true_eq,
      Decidable.not_not]
    exact h
  obtain ⟨i, hi⟩ := Option.isSome_iff_exists.1 hsome
  obtain ⟨hheading, hfirst⟩ := (t.columnIndex?_eq_some_iff heading i).1 hi
  have hlt : i < row.cells.length := hwide ▸ (List.getElem?_eq_some_iff.1 hheading).1
  exact ⟨row.cells[i], i, hheading, List.getElem?_eq_getElem hlt, hfirst⟩

/-- Under a heading that occurs once there is one cell. -/
theorem FirstUnder.eq_of_count {t : Table} {row : TableRow} {heading first last : String}
    (hfirst : t.FirstUnder row heading first) (hlast : t.LastUnder row heading last)
    (honce : t.headings.count heading = 1) : first = last := by
  obtain ⟨i, hi, hcell, hbefore⟩ := hfirst
  obtain ⟨j, hj, hcell', -⟩ := hlast
  rcases Nat.lt_trichotomy i j with hlt | rfl | hgt
  · obtain ⟨hi, hi'⟩ := List.getElem?_eq_some_iff.1 hi
    obtain ⟨hj, hj'⟩ := List.getElem?_eq_some_iff.1 hj
    have htwice : t.headings.Duplicate heading :=
      List.duplicate_iff_exists_distinct_get.2 ⟨⟨i, hi⟩, ⟨j, hj⟩, hlt, hi'.symm, hj'.symm⟩
    have htwo := List.duplicate_iff_two_le_count.1 htwice
    omega
  · rw [hcell] at hcell'
    exact Option.some.inj hcell'
  · exact absurd hj (hbefore j hgt)

end Table

/-! ### The scenario of a row -/

namespace Outline

/-- The steps of the scenario of an entry are those of the outline, with its holes filled in from
the record of the row. -/
theorem steps_of_mem_expand {o : Outline} {x : Entry} (hx : x.Of o) {sc : Scenario}
    (hsc : sc ∈ o.expand) (horigin : sc.origin = some ⟨o.line, x.block, x.index⟩) :
    sc.steps = o.steps.map (Step.fill fun name => (x.examples.table.record x.row).lookup name) := by
  rw [expand_eq_map_entries] at hsc
  obtain ⟨⟨block, e, index, row⟩, hy, rfl⟩ := List.mem_map.1 hsc
  obtain ⟨hblock, hindex⟩ := (o.mem_entries_iff _).1 hy
  obtain ⟨hblock', hindex'⟩ := hx
  have hplace : (⟨o.line, block, index⟩ : RowOrigin) = ⟨o.line, x.block, x.index⟩ :=
    Option.some.inj horigin
  rw [RowOrigin.mk.injEq] at hplace
  obtain ⟨-, rfl, rfl⟩ := hplace
  have he : e = x.examples := Option.some.inj (hblock.symm.trans hblock')
  subst he
  have hrow : row = x.row := Option.some.inj (hindex.symm.trans hindex')
  subst hrow
  simp only [Table.lookup_record]
  rfl

/-- In the scenario that the outline expands to for the entry, the value stands in the place of
`<name>` wherever that stands in a step of the outline. -/
def Substitutes (o : Outline) (x : Entry) (name value : String) : Prop :=
  ∃ sc ∈ o.expand, sc.origin = some ⟨o.line, x.block, x.index⟩ ∧ ∀ (i : ℕ) (before after : String),
    (o.steps.flatMap Step.texts)[i]? = some (before ++ "<" ++ name ++ ">" ++ after) →
    ∃ before' after', Template.Completes (x.examples.table.LastUnder x.row) before before' ∧
      Template.Completes (x.examples.table.LastUnder x.row) after after' ∧
      (sc.steps.flatMap Step.texts)[i]? = some (before' ++ value ++ after')

theorem substitutes_of_record {o : Outline} {x : Entry} (hx : x.Of o) {name value : String}
    (hname : Template.CanName name)
    (hvalue : (x.examples.table.record x.row).lookup name = some value) :
    o.Substitutes x name value := by
  have hmem : o.scenarioOf x.examples x.block x.row x.index ∈ o.expand := by
    rw [expand_eq_map_entries]
    exact List.mem_map.2 ⟨x, (o.mem_entries_iff x).2 hx, rfl⟩
  refine ⟨_, hmem, rfl, fun i before after hi => ?_⟩
  have hcells := fun heading cell =>
    x.examples.table.lastPaired?_pairs_eq_some_iff x.row heading cell
  simp only [← Table.lookup_record] at hcells
  refine ⟨_, _, Template.completes_fill hcells before, Template.completes_fill hcells after, ?_⟩
  rw [steps_of_mem_expand hx hmem rfl, List.flatMap_map]
  simp only [Step.texts_fill]
  rw [← List.map_flatMap, List.getElem?_map, hi, Option.map_some,
    Template.fill_append_hole hname hvalue]

end Outline

namespace Table

/-- In a table that passes the check, a row has a cell under each heading. `cell?` reads the first
one; the record of the row holds the last one, and so does, in the place of the hole, the scenario
that an outline with the table expands to. So the three agree if and only if these cells are equal,
and they are if the heading occurs once. -/
theorem readings_of_cell (t : Table) (path : String) (hvalid : t.violation? path = none) {i : ℕ}
    {row : TableRow} (hrow : t.rows[i]? = some row) {heading : String}
    (hheading : heading ∈ t.headings) :
    ∃ first last r, t.FirstUnder row heading first ∧ t.LastUnder row heading last ∧
      t.cell? row heading = some first ∧
      t.records[i]? = some r ∧ r.lookup heading = some last ∧
      (∀ (o : Outline) (x : Outline.Entry), x.Of o → x.examples.table = t → x.index = i →
        Template.CanName heading → o.Substitutes x heading last) ∧
      (t.cell? row heading = r.lookup heading ↔ first = last) ∧
      (t.headings.count heading = 1 → first = last) := by
  have hwide : row.cells.length = t.headings.length := by
    rw [t.violation?_eq_head?, List.head?_eq_none_iff, t.flaws_eq_nil_iff] at hvalid
    exact hvalid row (List.mem_of_getElem? hrow)
  obtain ⟨first, hfirst⟩ := exists_firstUnder hwide hheading
  obtain ⟨last, hpaired, -⟩ := exists_under hwide hheading
  have hlast := (t.lastPaired?_pairs_eq_some_iff row heading last).1 hpaired
  have hcell := (t.cell?_eq_some_iff row heading first).2 hfirst
  have hrecord : (t.record row).lookup heading = some last := by rw [lookup_record, hpaired]
  refine ⟨first, last, t.record row, hfirst, hlast, hcell, ?_, hrecord, ?_, ?_,
    hfirst.eq_of_count hlast⟩
  · rw [records, List.getElem?_map, hrow, Option.map_some]
  · rintro o x hx rfl rfl hname
    obtain rfl := Option.some.inj (hx.2.symm.trans hrow)
    exact Outline.substitutes_of_record hx hname hrecord
  · rw [hcell, hrecord, Option.some.injEq]

/-- Two columns with one heading that hold the same cell. -/
theorem readings_of_cell_repeated :
    let row : TableRow := ⟨["1", "2", "1"], 5⟩
    let t : Table := ⟨["a", "b", "a"], [row], 4⟩
    let o := { Outline.named "outline" with
      steps := [.ofClass .context "<a> and <b>"], examples := [.ofTable t] }
    t.violation? "a.feature" = none ∧ t.cell? row "a" = some "1" ∧
      t.records.map (·.lookup "a") = [some "1"] ∧
        o.Substitutes ⟨0, .ofTable t, 0, row⟩ "a" "1" := by
  intro row t o
  have hname : Template.CanName "a" := ⟨by decide, by simp⟩
  have hrow : t.rows[0]? = some row := rfl
  have hheading : "a" ∈ t.headings := by decide
  obtain ⟨first, last, r, -, -, hcell, hr, hlookup, hfills, -⟩ :=
    t.readings_of_cell "a.feature" (by decide) hrow hheading
  obtain rfl : t.record row = r := Option.some.inj hr
  have hlast : last = "1" := Option.some.inj (hlookup.symm.trans (by decide))
  refine ⟨by decide, by decide, by decide, ?_⟩
  exact hlast ▸ hfills o ⟨0, .ofTable t, 0, row⟩ ⟨rfl, rfl⟩ rfl rfl hname

/-- Two columns with one heading that hold different cells, in a suite that passes the check. -/
theorem repeated_heading_splits_readings :
    let row : TableRow := ⟨["1", "2"], 5⟩
    let t : Table := ⟨["a", "a"], [row], 4⟩
    let o := { Outline.named "outline" with
      steps := [.ofClass .context "<a>"], examples := [.ofTable t] }
    let suite : Suite := ⟨[{ Feature.named "feature" with
      children := [.definition (.outline o)] }]⟩
    suite.violation? = none ∧ t.cell? row "a" = some "1" ∧
      t.records.map (·.lookup "a") = [some "2"] ∧
      o.expand.map (fun sc => sc.steps.map (·.text)) = [["2"]] := by
  intro row t o suite
  have hholes : o.holes = ["a"] := by cbv
  have hblock : o.blockViolation? "" (.ofTable t) = none := by
    rw [Outline.blockViolation?, hholes]
    decide
  have houtline : o.violation? "" = none :=
    (firstViolation_eq_none_iff (o.blockViolation? "") _).2 (List.forall_mem_singleton.2 hblock)
  have hfeature : Feature.violation? { Feature.named "feature" with
      children := [.definition (.outline o)] } = none :=
    (firstViolation_eq_none_iff (FeatureChild.violation? "") _).2
      (List.forall_mem_singleton.2 houtline)
  exact ⟨(firstViolation_eq_none_iff Feature.violation? _).2 (List.forall_mem_singleton.2 hfeature),
    by decide, by decide, by cbv⟩

end Table

end Rehearsal
