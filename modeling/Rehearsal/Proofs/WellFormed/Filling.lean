import Rehearsal.Proofs.Place
import Rehearsal.Proofs.WellFormed

/-!
# Plans of well-formed documents

The check looks at templates, a plan holds what is made of them. `Template.Filled` says of two texts
that the second is the first with every hole replaced by a cell, without a word on how that is done,
and `Definition.Yields` says what the definitions of a document contribute to a plan. The scenarios
of a well-formed document are contributed in this way, and their steps are well-formed as well
(`Feature.WellFormed.yields`, `Feature.WellFormed.steps`).
-/

namespace Rehearsal

/-! ### Filling in -/

namespace Template

/-- At the start of the text stands a hole with the name, and `after` follows it. -/
def Begins (name after cs : List Char) : Prop :=
  cs = '<' :: (name ++ '>' :: after) ∧ name ≠ [] ∧ ∀ c ∈ name, isNameChar c

/-- The second text is the first one with a cell in the place of every hole; `cell` says which cells
belong to a name. -/
inductive Filled (cell : String → String → Prop) : List Char → List Char → Prop where
  | nil : Filled cell [] []
  | hole {cs name after out : List Char} {value : String} (hbegins : Begins name after cs)
      (hvalue : cell (String.ofList name) value) (hrest : Filled cell after out) :
      Filled cell cs (value.toList ++ out)
  | char {c : Char} {rest out : List Char} (hnone : ∀ name after, ¬ Begins name after (c :: rest))
      (hrest : Filled cell rest out) : Filled cell (c :: rest) (c :: out)

theorem begins_cons_iff {name after rest : List Char} {c : Char} :
    Begins name after (c :: rest) ↔ c = '<' ∧ hole? rest = some (name, after) := by
  rw [Begins, hole?_eq_some_iff, List.cons.injEq, and_assoc]

/-- Text whose holes all have values is filled in by the scan. -/
theorem filled_flatMap_pieces {values : String → Option String} {cell : String → String → Prop}
    (cs : List Char) (h : ∀ name, .hole name ∈ pieces cs →
      ∃ value, values (String.ofList name) = some value ∧ cell (String.ofList name) value) :
    Filled cell cs ((pieces cs).flatMap (Piece.filled values)) := by
  fun_induction pieces cs with
  | case1 => exact .nil
  | case2 rest name after hfound ih =>
    obtain ⟨value, hvalue, hcell⟩ := h name (by simp)
    have hrest := ih fun name' hname' => h name' (by simp [hname'])
    rw [List.flatMap_cons, Piece.filled, hvalue]
    exact .hole (begins_cons_iff.2 ⟨rfl, hfound⟩) hcell hrest
  | case3 rest hnone ih =>
    have hrest := ih fun name hname => h name (by simp [hname])
    refine .char (fun name after hbegins => ?_) hrest
    simp [begins_cons_iff, hnone] at hbegins
  | case4 c rest hc ih =>
    have hrest := ih fun name hname => h name (by simp [hname])
    refine .char (fun name after hbegins => ?_) hrest
    exact hc (begins_cons_iff.1 hbegins).1

end Template

namespace Table

/-- The cell stands in the row under the heading. -/
def Under (t : Table) (row : TableRow) (heading cell : String) : Prop :=
  ∃ i : Nat, t.headings[i]? = some heading ∧ row.cells[i]? = some cell

theorem mem_pairs_iff (t : Table) (row : TableRow) (heading cell : String) :
    (heading, cell) ∈ t.pairs row ↔ t.Under row heading cell := by
  simp [pairs, Under, List.mem_iff_getElem?, List.getElem?_zip_eq_some]

theorem mem_of_lastPaired? {heading cell : String} {ps : List (String × String)}
    (h : lastPaired? heading ps = some cell) : (heading, cell) ∈ ps := by
  induction ps with
  | nil => simp at h
  | cons p rest ih =>
    rw [lastPaired?] at h
    split at h
    · rename_i found hfound
      obtain rfl := Option.some.inj h
      exact List.mem_cons_of_mem _ (ih hfound)
    · split at h
      · rename_i hheading
        obtain rfl := Option.some.inj h
        simp [← hheading]
      · cases h

theorem isSome_lastPaired? {heading : String} {ps : List (String × String)}
    (h : heading ∈ ps.map (·.1)) : (lastPaired? heading ps).isSome = true := by
  induction ps with
  | nil => simp at h
  | cons p rest ih =>
    rw [lastPaired?]
    split
    · rfl
    · rename_i hnone
      rw [List.map_cons, List.mem_cons] at h
      rcases h with rfl | h
      · rw [if_pos rfl]
        rfl
      · simp [hnone] at ih
        exact absurd h (by simpa using ih)

/-- In a row as wide as the headings every heading has a cell, which `lastPaired?` finds. -/
theorem exists_under {t : Table} {row : TableRow} (hwide : row.cells.length = t.headings.length)
    {heading : String} (h : heading ∈ t.headings) :
    ∃ cell, lastPaired? heading (t.pairs row) = some cell ∧ t.Under row heading cell := by
  have hmem : heading ∈ (t.pairs row).map (·.1) := by
    rwa [pairs, List.map_fst_zip (Nat.le_of_eq hwide.symm)]
  obtain ⟨cell, hcell⟩ := Option.isSome_iff_exists.1 (isSome_lastPaired? hmem)
  exact ⟨cell, hcell, (t.mem_pairs_iff row heading cell).1 (mem_of_lastPaired? hcell)⟩

theorem WellFormed.fill {t : Table} (h : t.WellFormed) (values : String → Option String) :
    (t.fill values).WellFormed := by
  intro row hrow
  obtain ⟨source, hsource, rfl⟩ := List.mem_map.1 hrow
  simp [Table.fill, h source hsource]

end Table

/-! ### What definitions contribute to a plan -/

/-- A step with a type, and with a rectangular table if one stands below it. -/
structure Step.WellFormed (s : Step) : Prop where
  typed : s.stepType.isSome
  table : ∀ t, s.argument = some (.table t) → t.WellFormed

theorem Step.WellFormed.fill {s : Step} (h : s.WellFormed) (values : String → Option String) :
    (s.fill values).WellFormed := by
  refine ⟨h.typed, fun t ht => ?_⟩
  obtain ⟨argument, hargument, hfill⟩ := Option.map_eq_some_iff.1 ht
  cases argument with
  | docString d => cases hfill
  | table u =>
    cases hfill
    exact (h.table u hargument).fill values

/-- The scenario has the steps of the outline with the cells of the row in their texts. -/
def Scenario.Fills (sc : Scenario) (o : Outline) (e : Examples) (row : TableRow) : Prop :=
  List.Forall₂ (fun s s' => Template.Filled (e.table.Under row) s.text.toList s'.text.toList)
    o.steps sc.steps

/-- The rows of an outline with the blocks they stand in, in order. -/
def Outline.rows (o : Outline) : List (Examples × TableRow) :=
  o.examples.flatMap fun e => e.table.rows.map fun row => (e, row)

/-- What a definition contributes to a plan: a scenario itself, and an outline a scenario for each
of its rows, of which it has one at least. -/
def Definition.Yields : Definition → List Scenario → Prop
  | scenario s, scs => scs = [s]
  | outline o, scs => scs ≠ [] ∧ List.Forall₂ (fun x sc => sc.Fills o x.1 x.2) o.rows scs

/-- The scenarios and outlines of a feature in order, those of its rules included. -/
def Feature.definitions (f : Feature) : List Definition :=
  f.children.flatMap fun c =>
    match c with
    | .definition d => [d]
    | .rule r => r.children

theorem Feature.mem_definitions_iff (f : Feature) (d : Definition) :
    d ∈ f.definitions ↔ f.Holds d := by
  rw [definitions, List.mem_flatMap]
  constructor
  · rintro ⟨c, hc, hd⟩
    cases c with
    | definition d' =>
      obtain rfl := List.mem_singleton.1 hd
      exact .child hc
    | rule r => exact .inRule hc hd
  · intro h
    cases h with
    | child hd => exact ⟨_, hd, List.mem_singleton_self _⟩
    | inRule hr hd => exact ⟨_, hr, hd⟩

theorem Feature.map_scenario_places (f : Feature) :
    f.places.map (·.scenario) = f.definitions.flatMap Definition.scenarios := by
  rw [places, List.map_flatMap, definitions, List.flatMap_assoc]
  refine congrArg List.flatten (List.map_congr_left fun c _ => ?_)
  have hmap := fun (rule : Option Rule) (d : Definition) => d.map_places rule fun _ s => s
  cases c with
  | definition d => simpa [FeatureChild.places] using hmap none d
  | rule r =>
    rw [FeatureChild.places, List.map_flatMap]
    exact congrArg List.flatten (List.map_congr_left fun d _ => by simpa using hmap (some r) d)

theorem forall₂_mapIdx {R : α → β → Prop} {xs : List α} {f : Nat → α → β}
    (h : ∀ i, ∀ a ∈ xs, R a (f i a)) : List.Forall₂ R xs (xs.mapIdx f) := by
  induction xs generalizing f with
  | nil => exact .nil
  | cons a rest ih =>
    rw [List.mapIdx_cons]
    exact .cons (h 0 a List.mem_cons_self)
      (ih fun i b hb => h (i + 1) b (List.mem_cons_of_mem a hb))

namespace Outline

variable {o : Outline} {e : Examples}

/-- In a block that serves the steps every hole in their texts has a cell in every row. -/
theorem fills_scenarioOf (he : e.Serves o.steps) {row : TableRow} (hrow : row ∈ e.table.rows)
    (block index : Nat) : (o.scenarioOf e block row index).Fills o e row := by
  rw [Scenario.Fills, scenarioOf, List.forall₂_map_right_iff, List.forall₂_same]
  intro s hs
  rw [Step.fill, Template.fill, String.toList_ofList]
  refine Template.filled_flatMap_pieces _ fun name hname => ?_
  refine Table.exists_under (he.rectangular row hrow) (he.columns s hs _ ?_)
  rw [Template.Names, String.toList_ofList]
  exact (Template.hole_mem_pieces_iff name _).1 hname

theorem fills_expand (h : ∀ e ∈ o.examples, e.Serves o.steps) :
    List.Forall₂ (fun x sc => sc.Fills o x.1 x.2) o.rows o.expand := by
  rw [rows, expand]
  refine List.rel_flatten ?_
  rw [List.forall₂_map_left_iff]
  refine forall₂_mapIdx fun block e he => ?_
  rw [List.forall₂_map_left_iff]
  exact forall₂_mapIdx fun index row hrow => fills_scenarioOf (h e he) hrow block index

theorem expand_ne_nil (hne : o.examples ≠ []) (h : ∀ e ∈ o.examples, e.Serves o.steps) :
    o.expand ≠ [] := by
  obtain ⟨e, he⟩ := List.exists_mem_of_ne_nil _ hne
  obtain ⟨row, hrow⟩ := List.exists_mem_of_ne_nil _ (h e he).rows
  have hmem : (e, row) ∈ o.rows := List.mem_flatMap.2 ⟨e, he, List.mem_map_of_mem hrow⟩
  intro hnil
  have hrows := fills_expand h
  rw [hnil, List.forall₂_nil_right_iff] at hrows
  rw [hrows] at hmem
  cases hmem

theorem wellFormed_of_mem_expand {sc : Scenario} (hsc : sc ∈ o.expand)
    (h : ∀ s ∈ o.steps, s.WellFormed) : ∀ s ∈ sc.steps, s.WellFormed := by
  obtain ⟨scs, hscs, hmem⟩ := List.mem_flatten.1 hsc
  obtain ⟨block, hblock, rfl⟩ := List.mem_mapIdx.1 hscs
  obtain ⟨index, hindex, rfl⟩ := List.mem_mapIdx.1 hmem
  intro s hs
  obtain ⟨source, hsource, rfl⟩ := List.mem_map.1 hs
  exact (h source hsource).fill _

end Outline

namespace Feature.WellFormed

variable {f : Feature} (h : f.WellFormed)
include h

theorem step {s : Step} (hs : f.Writes s) : s.WellFormed :=
  ⟨h.typed s hs, fun t => h.tables s t hs⟩

theorem yields {d : Definition} (hd : f.Holds d) : d.Yields d.scenarios := by
  cases d with
  | scenario s => rfl
  | outline o =>
    obtain ⟨hne, hserves⟩ := h.examples o hd
    exact ⟨Outline.expand_ne_nil hne hserves, Outline.fills_expand hserves⟩

theorem steps {d : Definition} (hd : f.Holds d) {sc : Scenario} (hsc : sc ∈ d.scenarios) :
    ∀ s ∈ sc.steps, s.WellFormed := by
  cases d with
  | scenario s =>
    obtain rfl := List.mem_singleton.1 hsc
    exact fun s hs => h.step (.scenario hd hs)
  | outline o =>
    exact Outline.wellFormed_of_mem_expand hsc fun s hs => h.step (.outline hd hs)

/-- All steps at a place of the document are well-formed, those of the backgrounds included. -/
theorem stepsAt {p : ScenarioPlace} (hp : p ∈ f.places) :
    ∀ s ∈ p.scenario.steps, s.WellFormed := by
  have hmem : p.scenario ∈ f.definitions.flatMap Definition.scenarios := by
    rw [← f.map_scenario_places]
    exact List.mem_map_of_mem hp
  obtain ⟨d, hd, hsc⟩ := List.mem_flatMap.1 hmem
  exact h.steps ((f.mem_definitions_iff d).1 hd) hsc

end Feature.WellFormed

end Rehearsal
