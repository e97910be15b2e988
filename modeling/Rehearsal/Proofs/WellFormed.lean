import Rehearsal.Document.Check

/-!
# Well-formed documents

What a well-formed document is, said about the steps and outlines written in it wherever they
stand, and the flaws of a document in the order in which it is read: the background before the
children, the steps of an outline before its blocks of examples. The check of a suite finds a
violation exactly in the suites that are not well-formed, and what it finds is the first flaw of
the first feature that has one.
-/

namespace Rehearsal

namespace Template

/-- Is there a hole with the name in the text, that is, does `<name>` stand in it somewhere? -/
def Names (name text : String) : Prop :=
  name.toList ≠ [] ∧ (∀ c ∈ name.toList, isNameChar c) ∧
    '<' :: name.toList ++ ['>'] <:+: text.toList

theorem hole?_eq_some_iff {cs name rest : List Char} :
    hole? cs = some (name, rest) ↔
      cs = name ++ '>' :: rest ∧ name ≠ [] ∧ ∀ c ∈ name, isNameChar c := by
  constructor
  · intro h
    have hsplit := List.takeWhile_append_dropWhile (p := isNameChar) (l := cs)
    simp only [hole?] at h
    split at h
    · rename_i after heq
      split at h
      · simp at h
      · rename_i hne
        simp only [Option.some.injEq, Prod.mk.injEq] at h
        obtain ⟨rfl, rfl⟩ := h
        rw [heq] at hsplit
        exact ⟨hsplit.symm, by simpa using hne, List.all_eq_true.mp List.all_takeWhile⟩
    · simp at h
  · rintro ⟨rfl, hne, hname⟩
    have hstop : isNameChar '>' = false := by decide
    simp [hole?, List.takeWhile_append_of_pos hname, List.dropWhile_append_of_pos hname, hstop, hne]

theorem infix_append_iff_of_not_mem {w u v : List Char} {c : Char} (h : c ∉ u) :
    c :: w <:+: u ++ v ↔ c :: w <:+: v := by
  induction u with
  | nil => simp
  | cons d u ih =>
    have hne : c ≠ d := fun e => h (by simp [e])
    have hu : c ∉ u := fun hc => h (by simp [hc])
    simp [List.infix_cons_iff, hne, ih hu]

/-- The scan finds `<name>` wherever it stands: a name holds no `<`, so that no hole begins
inside of another. -/
theorem hole_mem_pieces_iff (name cs : List Char) :
    .hole name ∈ pieces cs ↔
      name ≠ [] ∧ (∀ c ∈ name, isNameChar c) ∧ '<' :: name ++ ['>'] <:+: cs := by
  fun_induction pieces cs with
  | case1 => simp
  | case2 rest found after hfound ih =>
    obtain ⟨rfl, hne, hname⟩ := hole?_eq_some_iff.mp hfound
    have hopen : '<' ∉ found ++ ['>'] := by
      intro hc
      rcases List.mem_append.mp hc with hc | hc
      · exact absurd (hname _ hc) (by decide)
      · simp at hc
    have hrest : found ++ '>' :: after = (found ++ ['>']) ++ after := by simp
    rw [List.mem_cons, ih, List.infix_cons_iff, hrest, List.cons_append,
      infix_append_iff_of_not_mem hopen]
    constructor
    · rintro (h | ⟨h, hn, hin⟩)
      · cases h
        exact ⟨hne, hname, .inl (by simp)⟩
      · exact ⟨h, hn, .inr hin⟩
    · rintro ⟨h, hn, hpre | hin⟩
      · obtain ⟨tail, ht⟩ := hpre
        have hsame : hole? (found ++ '>' :: after) = some (name, tail) :=
          hole?_eq_some_iff.mpr ⟨by simpa using ht.symm, h, hn⟩
        rw [hfound] at hsame
        simp at hsame
        simp [hsame.1]
      · exact .inr ⟨h, hn, hin⟩
  | case3 rest hnone ih =>
    rw [List.mem_cons, ih, List.infix_cons_iff]
    constructor
    · rintro (h | ⟨h, hn, hin⟩)
      · simp at h
      · exact ⟨h, hn, .inr hin⟩
    · rintro ⟨h, hn, hpre | hin⟩
      · obtain ⟨tail, ht⟩ := hpre
        have : hole? rest = some (name, tail) :=
          hole?_eq_some_iff.mpr ⟨by simpa using ht.symm, h, hn⟩
        rw [hnone] at this
        simp at this
      · exact .inr ⟨h, hn, hin⟩
  | case4 c rest hc ih =>
    have hne : '<' ≠ c := fun e => hc e.symm
    simp [ih, List.infix_cons_iff, hne]

theorem mem_holes_iff (name text : String) : name ∈ holes text ↔ Names name text := by
  have hmem : name ∈ holes text ↔ .hole name.toList ∈ pieces text.toList := by
    rw [holes, List.mem_filterMap]
    constructor
    · rintro ⟨p, hp, h⟩
      cases p with
      | char c => simp at h
      | hole n =>
        simp only [Option.some.injEq] at h
        rw [← h, String.toList_ofList]
        exact hp
    · intro h
      exact ⟨_, h, by simp⟩
  rw [hmem, hole_mem_pieces_iff]
  exact Iff.rfl

end Template

/-! ### What a well-formed document is -/

/-- Every row is as wide as the headings. -/
def Table.WellFormed (t : Table) : Prop := ∀ row ∈ t.rows, row.cells.length = t.headings.length

/-- Examples that fill in the steps: rectangular, with a row at least, and with a heading for
each hole in the texts of the steps. -/
structure Examples.Serves (e : Examples) (steps : List Step) : Prop where
  rectangular : e.table.WellFormed
  rows : e.table.rows ≠ []
  columns : ∀ s ∈ steps, ∀ name, Template.Names name s.text → name ∈ e.table.headings

/-- The scenarios and outlines of a feature, those of its rules included. -/
inductive Feature.Holds (f : Feature) : Definition → Prop where
  | child {d : Definition} (h : .definition d ∈ f.children) : f.Holds d
  | inRule {r : Rule} {d : Definition} (hr : .rule r ∈ f.children) (hd : d ∈ r.children) :
    f.Holds d

/-- The steps written in a feature. -/
inductive Feature.Writes (f : Feature) : Step → Prop where
  | background {b : Background} {s : Step} (hb : f.background = some b) (hs : s ∈ b.steps) :
    f.Writes s
  | ruleBackground {r : Rule} {b : Background} {s : Step} (hr : .rule r ∈ f.children)
    (hb : r.background = some b) (hs : s ∈ b.steps) : f.Writes s
  | scenario {sc : Scenario} {s : Step} (hd : f.Holds (.scenario sc)) (hs : s ∈ sc.steps) :
    f.Writes s
  | outline {o : Outline} {s : Step} (hd : f.Holds (.outline o)) (hs : s ∈ o.steps) : f.Writes s

/-- A feature whose steps have a type and tables that are rectangular, and whose outlines have
examples that all serve their steps. -/
structure Feature.WellFormed (f : Feature) : Prop where
  typed : ∀ s, f.Writes s → s.stepType.isSome
  tables : ∀ s t, f.Writes s → s.argument = some (.table t) → t.WellFormed
  examples : ∀ o, f.Holds (.outline o) →
    o.examples ≠ [] ∧ ∀ e ∈ o.examples, e.Serves o.steps

/-! ### The flaws of a document, in its order -/

/-- The rows that are not as wide as the headings. -/
def Table.flaws (path : String) (t : Table) : List Malformed :=
  (t.rows.filter fun row => row.cells.length != t.headings.length).map fun row =>
    ⟨path, row.line, .rowWidth row.cells.length t.headings.length⟩

/-- A missing type and the flaws of the table below the step. -/
def Step.flaws (path : String) (s : Step) : List Malformed :=
  (if s.stepType = none then [⟨path, s.line, .noType s.keyword s.text⟩] else []) ++
    s.table?.toList.flatMap (Table.flaws path)

/-- The flaws of a block: rows of another width, no rows, holes without a column. -/
def Outline.blockFlaws (path : String) (o : Outline) (e : Examples) : List Malformed :=
  e.table.flaws path ++
    (if e.table.rows = [] then [⟨path, e.line, .noRows o.name⟩] else []) ++
    (o.holes.filter fun hole => hole ∉ e.table.headings).map fun hole =>
      ⟨path, e.line, .noColumn hole o.name⟩

def Outline.flaws (path : String) (o : Outline) : List Malformed :=
  o.steps.flatMap (Step.flaws path) ++
    (if o.examples = [] then [⟨path, o.line, .noExamples o.name⟩] else []) ++
    o.examples.flatMap (o.blockFlaws path)

def Background.flaws (path : String) (b : Option Background) : List Malformed :=
  b.toList.flatMap fun b => b.steps.flatMap (Step.flaws path)

def Definition.flaws (path : String) : Definition → List Malformed
  | scenario s => s.steps.flatMap (Step.flaws path)
  | outline o => o.flaws path

def Rule.flaws (path : String) (r : Rule) : List Malformed :=
  Background.flaws path r.background ++ r.children.flatMap (Definition.flaws path)

def FeatureChild.flaws (path : String) : FeatureChild → List Malformed
  | definition d => d.flaws path
  | rule r => r.flaws path

/-- The flaws of a feature: those of its background and then those of its children. -/
def Feature.flaws (f : Feature) : List Malformed :=
  Background.flaws f.path f.background ++ f.children.flatMap (FeatureChild.flaws f.path)

/-! ### The check finds the first flaw -/

theorem firstViolation_eq_head? {check : α → Option Malformed} {flaws : α → List Malformed}
    (h : ∀ a, check a = (flaws a).head?) (as : List α) :
    firstViolation check as = (as.flatMap flaws).head? := by
  induction as with
  | nil => rfl
  | cons a rest ih =>
    rw [firstViolation, List.flatMap_cons, List.head?_append, ← ih, ← h a]
    cases check a <;> rfl

theorem Table.violation?_eq_head? (path : String) (t : Table) :
    t.violation? path = (t.flaws path).head? := by
  simp [violation?, flaws, List.head?_filter]

theorem Step.violation?_eq_head? (path : String) (s : Step) :
    s.violation? path = (s.flaws path).head? := by
  cases hs : s.stepType <;> cases ht : s.table? <;>
    simp [violation?, flaws, hs, ht, Table.violation?_eq_head?]

theorem Table.columnIndex?_isNone (t : Table) (heading : String) :
    (t.columnIndex? heading).isNone = decide (heading ∉ t.headings) := by
  rw [Bool.eq_iff_iff, Option.isNone_iff_eq_none, columnIndex?, List.findIdx?_eq_none_iff]
  simp only [beq_eq_false_iff_ne, decide_eq_true_eq]
  exact ⟨fun h hin => h _ hin rfl, fun h x hx e => h (e ▸ hx)⟩

theorem Outline.blockViolation?_eq_head? (path : String) (o : Outline) (e : Examples) :
    o.blockViolation? path e = (o.blockFlaws path e).head? := by
  simp only [blockViolation?, blockFlaws, Table.violation?_eq_head?, Table.columnIndex?_isNone,
    List.head?_append, List.head?_map, List.head?_filter]
  cases (e.table.flaws path).head? <;> cases e.table.rows <;> simp

theorem Outline.violation?_eq_head? (path : String) (o : Outline) :
    o.violation? path = (o.flaws path).head? := by
  simp only [violation?, flaws, List.head?_append,
    firstViolation_eq_head? (Step.violation?_eq_head? path),
    firstViolation_eq_head? (o.blockViolation?_eq_head? path)]
  cases (o.steps.flatMap (Step.flaws path)).head? <;> cases o.examples <;> simp

theorem Background.violation?_eq_head? (path : String) (b : Option Background) :
    Background.violation? path b = (Background.flaws path b).head? := by
  cases b <;> simp [violation?, flaws, firstViolation_eq_head? (Step.violation?_eq_head? path)]

theorem Definition.violation?_eq_head? (path : String) (d : Definition) :
    d.violation? path = (d.flaws path).head? := by
  cases d with
  | scenario s => exact firstViolation_eq_head? (Step.violation?_eq_head? path) s.steps
  | outline o => exact o.violation?_eq_head? path

theorem Rule.violation?_eq_head? (path : String) (r : Rule) :
    r.violation? path = (r.flaws path).head? := by
  simp only [violation?, flaws, List.head?_append, Background.violation?_eq_head?,
    firstViolation_eq_head? (Definition.violation?_eq_head? path)]
  cases (Background.flaws path r.background).head? <;> simp

theorem FeatureChild.violation?_eq_head? (path : String) (c : FeatureChild) :
    c.violation? path = (c.flaws path).head? := by
  cases c with
  | definition d => exact d.violation?_eq_head? path
  | rule r => exact r.violation?_eq_head? path

theorem Feature.violation?_eq_head? (f : Feature) : f.violation? = f.flaws.head? := by
  simp only [violation?, flaws, List.head?_append, Background.violation?_eq_head?,
    firstViolation_eq_head? (FeatureChild.violation?_eq_head? f.path)]
  cases (Background.flaws f.path f.background).head? <;> simp

/-! ### No flaws in a well-formed document only -/

theorem Table.flaws_eq_nil_iff (path : String) (t : Table) : t.flaws path = [] ↔ t.WellFormed := by
  simp [flaws, WellFormed]

theorem Step.table?_eq_some_iff (s : Step) (t : Table) :
    s.table? = some t ↔ s.argument = some (.table t) := by
  rw [table?]
  split
  · rename_i u h
    simp [h]
  · rename_i h
    simp only [reduceCtorEq, false_iff]
    exact h t

theorem Step.flaws_eq_nil_iff (path : String) (s : Step) :
    s.flaws path = [] ↔
      s.stepType.isSome ∧ ∀ t, s.argument = some (.table t) → t.WellFormed := by
  simp [flaws, Table.flaws_eq_nil_iff, Step.table?_eq_some_iff, Option.isSome_iff_ne_none]

theorem Outline.mem_holes_iff (o : Outline) (name : String) :
    name ∈ o.holes ↔ ∃ s ∈ o.steps, Template.Names name s.text := by
  simp [holes, Text.mem_sorted, Template.mem_holes_iff]

theorem Outline.blockFlaws_eq_nil_iff (path : String) (o : Outline) (e : Examples) :
    o.blockFlaws path e = [] ↔ e.Serves o.steps := by
  have hcolumns : (∀ name ∈ o.holes, name ∈ e.table.headings) ↔
      ∀ s ∈ o.steps, ∀ name, Template.Names name s.text → name ∈ e.table.headings := by
    simp only [o.mem_holes_iff]
    exact ⟨fun h s hs name hn => h name ⟨s, hs, hn⟩, fun h name ⟨s, hs, hn⟩ => h s hs name hn⟩
  simp only [blockFlaws, List.append_eq_nil_iff, Table.flaws_eq_nil_iff, List.map_eq_nil_iff,
    List.filter_eq_nil_iff, decide_eq_true_eq, Decidable.not_not, hcolumns]
  constructor
  · rintro ⟨⟨hwide, hrows⟩, hcols⟩
    exact ⟨hwide, by simpa using hrows, hcols⟩
  · intro h
    exact ⟨⟨h.rectangular, by simp [h.rows]⟩, h.columns⟩

theorem Outline.flaws_eq_nil_iff (path : String) (o : Outline) :
    o.flaws path = [] ↔ (∀ s ∈ o.steps, s.flaws path = []) ∧
      o.examples ≠ [] ∧ ∀ e ∈ o.examples, e.Serves o.steps := by
  simp [flaws, blockFlaws_eq_nil_iff]

theorem Background.flaws_eq_nil_iff (path : String) (b : Option Background) :
    Background.flaws path b = [] ↔ ∀ c, b = some c → ∀ s ∈ c.steps, s.flaws path = [] := by
  simp [flaws]

/-- The flaws of a feature are those of the steps written in it and those of its outlines. -/
theorem Feature.flaws_eq_nil_iff (f : Feature) :
    f.flaws = [] ↔ (∀ s, f.Writes s → s.flaws f.path = []) ∧
      ∀ o, f.Holds (.outline o) → o.examples ≠ [] ∧ ∀ e ∈ o.examples, e.Serves o.steps := by
  have hsplit : f.flaws = [] ↔
      (∀ b, f.background = some b → ∀ s ∈ b.steps, s.flaws f.path = []) ∧
        (∀ r, .rule r ∈ f.children → ∀ b, r.background = some b → ∀ s ∈ b.steps,
          s.flaws f.path = []) ∧
        ∀ d, f.Holds d → d.flaws f.path = [] := by
    rw [flaws, List.append_eq_nil_iff, List.flatMap_eq_nil_iff, Background.flaws_eq_nil_iff]
    constructor
    · rintro ⟨hb, hc⟩
      refine ⟨hb, fun r hr => ?_, fun d hd => ?_⟩
      · have := hc _ hr
        simp only [FeatureChild.flaws, Rule.flaws, List.append_eq_nil_iff,
          Background.flaws_eq_nil_iff] at this
        exact this.1
      · cases hd with
        | child h => exact hc _ h
        | inRule hr hd =>
          have := hc _ hr
          simp only [FeatureChild.flaws, Rule.flaws, List.append_eq_nil_iff,
            List.flatMap_eq_nil_iff] at this
          exact this.2 d hd
    · rintro ⟨hb, hr, hd⟩
      refine ⟨hb, fun c hc => ?_⟩
      cases c with
      | definition d => exact hd d (.child hc)
      | rule r =>
        simp only [FeatureChild.flaws, Rule.flaws, List.append_eq_nil_iff,
          List.flatMap_eq_nil_iff, Background.flaws_eq_nil_iff]
        exact ⟨hr r hc, fun d h => hd d (.inRule hc h)⟩
  rw [hsplit]
  constructor
  · rintro ⟨hb, hr, hd⟩
    constructor
    · intro s hs
      cases hs with
      | background h hs => exact hb _ h s hs
      | ruleBackground h hbg hs => exact hr _ h _ hbg s hs
      | scenario h hs => exact List.flatMap_eq_nil_iff.mp (hd _ h) s hs
      | outline h hs => exact ((Outline.flaws_eq_nil_iff _ _).mp (hd _ h)).1 s hs
    · exact fun o h => ((Outline.flaws_eq_nil_iff _ _).mp (hd _ h)).2
  · rintro ⟨hs, ho⟩
    refine ⟨fun b h s hb => hs s (.background h hb),
      fun r h b hbg s hb => hs s (.ruleBackground h hbg hb), fun d hd => ?_⟩
    cases d with
    | scenario sc => exact List.flatMap_eq_nil_iff.mpr fun s h => hs s (.scenario hd h)
    | outline o =>
      exact (Outline.flaws_eq_nil_iff _ _).mpr ⟨fun s h => hs s (.outline hd h), ho o hd⟩

theorem Feature.flaws_eq_nil_iff_wellFormed (f : Feature) : f.flaws = [] ↔ f.WellFormed := by
  simp only [f.flaws_eq_nil_iff, Step.flaws_eq_nil_iff]
  constructor
  · rintro ⟨hs, ho⟩
    exact ⟨fun s h => (hs s h).1, fun s t h => (hs s h).2 t, ho⟩
  · intro h
    exact ⟨fun s hs => ⟨h.typed s hs, fun t => h.tables s t hs⟩, h.examples⟩

theorem Feature.violation?_eq_none_iff (f : Feature) : f.violation? = none ↔ f.WellFormed := by
  rw [f.violation?_eq_head?, List.head?_eq_none_iff, f.flaws_eq_nil_iff_wellFormed]

/-! ### Every flaw names its document -/

theorem Step.path_of_mem_flaws {path : String} {s : Step} {m : Malformed}
    (h : m ∈ s.flaws path) : m.path = path := by
  simp only [flaws, Table.flaws, List.mem_append, List.mem_flatMap, List.mem_map] at h
  obtain h | ⟨t, -, row, -, rfl⟩ := h
  · split at h <;> simp_all
  · rfl

theorem Outline.path_of_mem_flaws {path : String} {o : Outline} {m : Malformed}
    (h : m ∈ o.flaws path) : m.path = path := by
  simp only [flaws, blockFlaws, Table.flaws, List.mem_append, List.mem_flatMap, List.mem_map] at h
  obtain (⟨s, -, hs⟩ | h) | ⟨e, -, (⟨row, -, rfl⟩ | h) | ⟨hole, -, rfl⟩⟩ := h
  · exact s.path_of_mem_flaws hs
  · split at h <;> simp_all
  · rfl
  · split at h <;> simp_all
  · rfl

theorem Background.path_of_mem_flaws {path : String} {b : Option Background} {m : Malformed}
    (h : m ∈ Background.flaws path b) : m.path = path := by
  simp only [flaws, List.mem_flatMap] at h
  obtain ⟨b, -, s, -, hs⟩ := h
  exact Step.path_of_mem_flaws hs

theorem Definition.path_of_mem_flaws {path : String} {d : Definition} {m : Malformed}
    (h : m ∈ d.flaws path) : m.path = path := by
  cases d with
  | scenario s =>
    obtain ⟨s, -, hs⟩ := List.mem_flatMap.mp h
    exact Step.path_of_mem_flaws hs
  | outline o => exact Outline.path_of_mem_flaws h

theorem Feature.path_of_mem_flaws {f : Feature} {m : Malformed} (h : m ∈ f.flaws) :
    m.path = f.path := by
  rcases List.mem_append.mp h with h | h
  · exact Background.path_of_mem_flaws h
  · obtain ⟨c, -, h⟩ := List.mem_flatMap.mp h
    cases c with
    | definition d => exact Definition.path_of_mem_flaws h
    | rule r =>
      rcases List.mem_append.mp h with h | h
      · exact Background.path_of_mem_flaws h
      · obtain ⟨d, -, hd⟩ := List.mem_flatMap.mp h
        exact Definition.path_of_mem_flaws hd

/-! ### The verdict on a suite -/

theorem firstViolation_eq_some_iff (check : α → Option Malformed) (as : List α) (m : Malformed) :
    firstViolation check as = some m ↔
      ∃ before a after, as = before ++ a :: after ∧ (∀ b ∈ before, check b = none) ∧
        check a = some m := by
  induction as with
  | nil => simp
  | cons a rest ih =>
    rw [firstViolation]
    cases h : check a with
    | some n =>
      constructor
      · rintro e
        exact ⟨[], a, rest, rfl, by simp, h.trans e⟩
      · rintro ⟨before, b, after, e, hb, hm⟩
        cases before with
        | nil =>
          obtain ⟨rfl, rfl⟩ := List.cons.inj e
          exact h.symm.trans hm
        | cons c before =>
          obtain ⟨rfl, -⟩ := List.cons.inj e
          simp [h] at hb
    | none =>
      simp only [ih]
      constructor
      · rintro ⟨before, b, after, rfl, hb, hm⟩
        exact ⟨a :: before, b, after, rfl, by simpa [h] using hb, hm⟩
      · rintro ⟨before, b, after, e, hb, hm⟩
        cases before with
        | nil =>
          obtain ⟨rfl, rfl⟩ := List.cons.inj e
          simp [h] at hm
        | cons c before =>
          obtain ⟨rfl, rfl⟩ := List.cons.inj e
          exact ⟨before, b, after, rfl, fun x hx => hb x (by simp [hx]), hm⟩

/-- A suite passes the check exactly when its features are well-formed. Otherwise the check
reports the first flaw of the first feature that is not: its path, its line and what it is. -/
theorem Suite.violation_is_first_flaw (s : Suite) :
    (s.violation? = none ↔ ∀ f ∈ s.features, f.WellFormed) ∧
      ∀ m, s.violation? = some m ↔
        ∃ before f after, s.features = before ++ f :: after ∧ (∀ g ∈ before, g.WellFormed) ∧
          ¬ f.WellFormed ∧ f.flaws.head? = some m ∧ m.path = f.path := by
  refine ⟨?_, fun m => ?_⟩
  · rw [violation?, firstViolation_eq_none_iff]
    simp only [Feature.violation?_eq_none_iff]
  · rw [violation?, firstViolation_eq_some_iff]
    simp only [Feature.violation?_eq_none_iff]
    constructor
    · rintro ⟨before, f, after, hs, hb, hm⟩
      rw [f.violation?_eq_head?] at hm
      have hbad : ¬ f.WellFormed := by
        rw [← f.flaws_eq_nil_iff_wellFormed]
        intro hnil
        simp [hnil] at hm
      exact ⟨before, f, after, hs, hb, hbad, hm, f.path_of_mem_flaws (List.mem_of_head? hm)⟩
    · rintro ⟨before, f, after, hs, hb, -, hm, -⟩
      exact ⟨before, f, after, hs, hb, f.violation?_eq_head?.trans hm⟩

end Rehearsal
