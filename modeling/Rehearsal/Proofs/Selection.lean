import Rehearsal.Config
import Rehearsal.Proofs.Place
import Rehearsal.Proofs.Search

/-!
# What a configuration selects

`RunConfig.Selects` says of a place in a document whether a configuration selects its scenario,
in terms of the configuration and the document alone: of the texts that were configured, and
of the tags, names and lines that were written. The options compiled from a configuration
select the same scenarios (`RunConfig.selected_iff`).
-/

namespace Rehearsal

/-- The truth of an expression depends on which tags there are, not on their order or number. -/
theorem TagExpression.holds_congr {tags tags' : List String} (h : ∀ t, t ∈ tags ↔ t ∈ tags')
    (e : TagExpression) : e.holds tags = e.holds tags' := by
  induction e with
  | always => rfl
  | tag name =>
    refine Bool.eq_iff_iff.2 ?_
    rw [holds, holds, isTagged_iff, isTagged_iff]
    exact exists_congr fun t => and_congr_left fun _ => h t
  | not inner ih => rw [holds, holds, ih]
  | and left right ihl ihr => rw [holds, holds, ihl, ihr]
  | or left right ihl ihr => rw [holds, holds, ihl, ihr]

namespace TagSet

theorem mem_names_foldl_replace (n : String) (ts : List Tag) (s : TagSet) :
    n ∈ (ts.foldl replace s).names ↔ n ∈ s.names ∨ ∃ t ∈ ts, t.name = n := by
  induction ts generalizing s with
  | nil => simp
  | cons t rest ih =>
    have hinsert : n ∈ (s.replace t).names ↔ n = t.name ∨ n ∈ s.names :=
      mem_names_insertByName _ (fun a b hab => hab.symm) t s.tags n
    rw [List.foldl_cons, ih, hinsert, List.exists_mem_cons_iff, ← or_assoc, eq_comm (a := n),
      or_comm (a := t.name = n)]

/-- The names that hold for a node are those of the node and of all nodes around it. -/
theorem mem_names_effective (n : String) (lineage : List TagSet) :
    n ∈ (effective lineage).names ↔ ∃ s ∈ lineage, n ∈ s.names := by
  rw [effective, mem_names_foldl_replace, names_empty]
  simp only [List.not_mem_nil, false_or, names, List.mem_map, List.mem_flatMap]
  constructor
  · rintro ⟨t, ⟨s, hs, ht⟩, rfl⟩
    exact ⟨s, hs, t, ht, rfl⟩
  · rintro ⟨s, hs, t, ht, rfl⟩
    exact ⟨t, ⟨s, hs, ht⟩, rfl⟩

end TagSet

/-- A pattern is found in a name if and only if its expression covers some part of it. -/
theorem NamePattern.isFoundIn_iff {p : NamePattern} {name : String} :
    p.isFoundIn name = true ↔
      ∃ i j, i ≤ name.length ∧ p.regex.root.Spans name.toList.toArray i j := by
  rw [isFoundIn, Regex.isFoundIn_iff, List.size_toArray, String.length_toList]

/-- The line of the outline that the scenario of a place comes from, if it comes from one. -/
def ScenarioPlace.outlineLine? (p : ScenarioPlace) : Option Nat :=
  match p.row with
  | some (o, _) => some o.line
  | none => p.scenario.origin.map (·.outlineLine)

/-- The tags of a place as they are written: those of the feature, those of the rule around the
place, and those of the scenario or, for a row, of the outline and of the block of examples. -/
def Feature.tagNamesAt (f : Feature) (p : ScenarioPlace) : List String :=
  f.tags.names ++ p.rule.toList.flatMap (·.tags.names) ++
    match p.row with
    | some (o, e) => o.tags.names ++ e.tags.names
    | none => p.scenario.tags.names

/-- The configuration selects the scenario of a place. -/
structure RunConfig.Selects (c : RunConfig) (f : Feature) (p : ScenarioPlace) : Prop where
  tags : ∀ text ∈ c.tags, ∃ e, TagExpression.parse text = .ok e ∧
    e.holds (f.tagNamesAt p) = true
  names : c.names = [] ∨ ∃ text ∈ c.names, ∃ regex, Regex.compile? text = some regex ∧
    ∃ i j, i ≤ p.scenario.name.length ∧
      regex.root.Spans p.scenario.name.toList.toArray i j
  locations : c.locations = [] ∨ ∃ text ∈ c.locations, ∃ ls, Location.parseAll text = .ok ls ∧
    ∃ l ∈ ls, Location.plainPath l.path = Location.plainPath f.path ∧
      (l.line = none ∨ l.line = some p.scenario.line ∨
        ∃ line, p.outlineLine? = some line ∧ l.line = some line)

namespace Definition

variable {rule : Option Rule} {d : Definition} {p : ScenarioPlace}

/-- The scenario of a row has the tags of the outline and of the block of examples, and knows
where it comes from. -/
theorem row_of_mem_places (hp : p ∈ d.places rule) {o : Outline} {e : Examples}
    (hrow : p.row = some (o, e)) :
    p.scenario.tags = .effective [o.tags, e.tags] ∧
      p.scenario.origin.map (·.outlineLine) = some o.line := by
  cases d with
  | scenario s =>
    obtain rfl := List.mem_singleton.1 hp
    cases hrow
  | outline o' =>
    obtain ⟨block, hblock, hp⟩ := List.mem_flatten.1 hp
    obtain ⟨index, hindex, rfl⟩ := List.mem_mapIdx.1 hblock
    obtain ⟨s, hs, rfl⟩ := List.mem_map.1 hp
    obtain ⟨row, hrow', rfl⟩ := List.mem_mapIdx.1 hs
    cases hrow
    exact ⟨rfl, rfl⟩

end Definition

namespace Feature

variable {f : Feature} {p : ScenarioPlace}

theorem exists_definition_of_mem_places (hp : p ∈ f.places) :
    ∃ (rule : Option Rule) (d : Definition), p ∈ d.places rule := by
  obtain ⟨c, -, hc⟩ := List.mem_flatMap.1 hp
  cases c with
  | definition d => exact ⟨none, d, hc⟩
  | rule r =>
    obtain ⟨d, -, hd⟩ := List.mem_flatMap.1 hc
    exact ⟨some r, d, hd⟩

theorem outlineLine?_of_mem_places (hp : p ∈ f.places) :
    p.outlineLine? = p.scenario.origin.map (·.outlineLine) := by
  obtain ⟨rule, d, hd⟩ := exists_definition_of_mem_places hp
  unfold ScenarioPlace.outlineLine?
  split
  · rename_i o e hrow
    exact (Definition.row_of_mem_places hd hrow).2.symm
  · rfl

/-- A location picks the scenario of a place by the path alone, by its line, or by that of its
outline. -/
theorem picks_iff (hp : p ∈ f.places) (l : Location) :
    l.picks f.path p.scenario = true ↔ Location.plainPath l.path = Location.plainPath f.path ∧
      (l.line = none ∨ l.line = some p.scenario.line ∨
        ∃ line, p.outlineLine? = some line ∧ l.line = some line) := by
  rw [outlineLine?_of_mem_places hp, Location.picks, Bool.and_eq_true, beq_iff_eq]
  refine and_congr_right fun _ => ?_
  cases l.line with
  | none => simp
  | some line =>
    have hline : (p.scenario.line == line) = true ↔ line = p.scenario.line := by
      rw [beq_iff_eq, eq_comm]
    cases p.scenario.origin with
    | none => simp [hline]
    | some o =>
      have houtline : (o.outlineLine == line) = true ↔ line = o.outlineLine := by
        rw [beq_iff_eq, eq_comm]
      simp only [Bool.or_eq_true, hline, houtline]
      simp

/-- The tags that a plan takes for a place are those written there. -/
theorem mem_names_planAt (o : RunOptions) (hp : p ∈ f.places) (n : String) :
    n ∈ (o.planAt f p).tags.names ↔ n ∈ f.tagNamesAt p := by
  obtain ⟨rule, d, hd⟩ := exists_definition_of_mem_places hp
  have hown : n ∈ p.scenario.tags.names ↔ n ∈ (match p.row with
      | some (o, e) => o.tags.names ++ e.tags.names
      | none => p.scenario.tags.names : List String) := by
    split
    · rename_i o e hrow
      rw [(Definition.row_of_mem_places hd hrow).1, TagSet.mem_names_effective]
      simp
    · rfl
  change n ∈
    (TagSet.effective (f.tags :: p.rule.toList.map (·.tags) ++ [p.scenario.tags])).names ↔ _
  rw [TagSet.mem_names_effective, tagNamesAt, List.mem_append, ← hown]
  cases p.rule <;> simp [or_assoc]

end Feature

namespace Location

theorem parseAll_ne_nil {text : String} {ls : List Location} (h : parseAll text = .ok ls) :
    ls ≠ [] := by
  unfold parseAll at h
  split at h
  · rename_i found hfound
    cases h
    unfold parseTrimmed? at hfound
    split at hfound
    · cases hfound
    · dsimp only at hfound
      split at hfound
      · cases hfound
      · split at hfound
        · cases hfound
          exact List.cons_ne_nil _ _
        · rename_i hlines
          cases hfound
          simpa using hlines
  · cases h

end Location

namespace RunConfig

theorem exists_of_bind_ok {α β ε : Type} {x : Except ε α} {k : α → Except ε β} {b : β}
    (h : x >>= k = .ok b) : ∃ a, x = .ok a ∧ k a = .ok b := by
  cases x with
  | error e => cases h
  | ok a => exact ⟨a, rfl, h⟩

theorem compileNames_ok {texts : List String} {ps : List NamePattern}
    (h : compileNames texts = .ok ps) :
    (ps = [] ↔ texts = []) ∧ ∀ p, p ∈ ps ↔
      ∃ text ∈ texts, ∃ regex, Regex.compile? text = some regex ∧ p = ⟨text, regex⟩ := by
  induction texts generalizing ps with
  | nil =>
    cases h
    simp
  | cons text rest ih =>
    unfold compileNames at h
    split at h
    · rename_i regex hregex
      split at h
      · rename_i ps' hrest
        cases h
        refine ⟨by simp, fun p => ?_⟩
        rw [List.mem_cons, (ih hrest).2, List.exists_mem_cons_iff]
        simp [hregex]
      · cases h
    · cases h

theorem compileLocations_ok {texts : List String} {ls : List Location}
    (h : compileLocations texts = .ok ls) :
    (ls = [] ↔ texts = []) ∧ ∀ l, l ∈ ls ↔
      ∃ text ∈ texts, ∃ ls', Location.parseAll text = .ok ls' ∧ l ∈ ls' := by
  induction texts generalizing ls with
  | nil =>
    cases h
    simp
  | cons text rest ih =>
    unfold compileLocations at h
    split at h
    · rename_i first hfirst
      split at h
      · rename_i more hrest
        cases h
        have hne := Location.parseAll_ne_nil hfirst
        refine ⟨by simp [hne], fun l => ?_⟩
        rw [List.mem_append, (ih hrest).2, List.exists_mem_cons_iff]
        simp [hfirst]
      · cases h
    · cases h

theorem all_holds_of_mapM {texts : List String} {es : List TagExpression}
    (h : texts.mapM TagExpression.parse = .ok es) (tags : List String) :
    es.all (·.holds tags) = true ↔
      ∀ text ∈ texts, ∃ e, TagExpression.parse text = .ok e ∧ e.holds tags = true := by
  induction texts generalizing es with
  | nil =>
    cases h
    simp
  | cons text rest ih =>
    rw [List.mapM_cons] at h
    obtain ⟨e, hfirst, h⟩ := exists_of_bind_ok h
    obtain ⟨es', hrest, h⟩ := exists_of_bind_ok h
    cases h
    rw [List.all_cons, Bool.and_eq_true, ih hrest, List.forall_mem_cons]
    simp [hfirst]

theorem compileTags_ok {texts : List String} {filter : TagFilter}
    (h : compileTags texts = .ok filter) (tags : List String) :
    filter.accepts tags = true ↔
      ∀ text ∈ texts, ∃ e, TagExpression.parse text = .ok e ∧ e.holds tags = true := by
  unfold compileTags TagFilter.parse at h
  cases hparsed : texts.mapM TagExpression.parse with
  | error e =>
    rw [hparsed] at h
    cases h
  | ok es =>
    rw [hparsed] at h
    cases h
    exact all_holds_of_mapM hparsed tags

/-- The selection that a configuration is compiled to. -/
theorem compile_ok {c : RunConfig} {processors : Nat} {o : RunOptions}
    (h : c.compile processors = .ok o) :
    compileNames c.names = .ok o.selection.names ∧
      compileLocations c.locations = .ok o.selection.locations ∧
      compileTags c.tags = .ok o.selection.tags := by
  unfold compile at h
  obtain ⟨names, hnames, h⟩ := exists_of_bind_ok h
  obtain ⟨locations, hlocations, h⟩ := exists_of_bind_ok h
  obtain ⟨retry, -, h⟩ := exists_of_bind_ok h
  obtain ⟨tags, htags, h⟩ := exists_of_bind_ok h
  obtain ⟨goes, -, h⟩ := exists_of_bind_ok h
  cases h
  exact ⟨hnames, hlocations, htags⟩

theorem any_isFoundIn_iff {texts : List String} {ps : List NamePattern}
    (h : compileNames texts = .ok ps) (name : String) :
    (ps.any fun p => p.isFoundIn name) = true ↔
      ∃ text ∈ texts, ∃ regex, Regex.compile? text = some regex ∧
        ∃ i j, i ≤ name.length ∧ regex.root.Spans name.toList.toArray i j := by
  obtain ⟨-, hmem⟩ := compileNames_ok h
  rw [List.any_eq_true]
  constructor
  · rintro ⟨p, hp, hfound⟩
    obtain ⟨text, htext, regex, hregex, rfl⟩ := (hmem p).1 hp
    exact ⟨text, htext, regex, hregex, NamePattern.isFoundIn_iff.1 hfound⟩
  · rintro ⟨text, htext, regex, hregex, hspans⟩
    exact ⟨_, (hmem _).2 ⟨text, htext, regex, hregex, rfl⟩, NamePattern.isFoundIn_iff.2 hspans⟩

theorem any_picks_iff {texts : List String} {ls : List Location}
    (h : compileLocations texts = .ok ls) {f : Feature} {p : ScenarioPlace} (hp : p ∈ f.places) :
    (ls.any fun l => l.picks f.path p.scenario) = true ↔
      ∃ text ∈ texts, ∃ ls', Location.parseAll text = .ok ls' ∧
        ∃ l ∈ ls', Location.plainPath l.path = Location.plainPath f.path ∧
          (l.line = none ∨ l.line = some p.scenario.line ∨
            ∃ line, p.outlineLine? = some line ∧ l.line = some line) := by
  obtain ⟨-, hmem⟩ := compileLocations_ok h
  rw [List.any_eq_true]
  constructor
  · rintro ⟨l, hl, hpicks⟩
    obtain ⟨text, htext, ls', hls', hl'⟩ := (hmem l).1 hl
    exact ⟨text, htext, ls', hls', l, hl', (Feature.picks_iff hp l).1 hpicks⟩
  · rintro ⟨text, htext, ls', hls', l, hl', hpicks⟩
    exact ⟨l, (hmem l).2 ⟨text, htext, ls', hls', hl'⟩, (Feature.picks_iff hp l).2 hpicks⟩

/-- The options that a configuration is compiled to select what the configuration selects. -/
theorem selected_iff {c : RunConfig} {processors : Nat} {o : RunOptions}
    (h : c.compile processors = .ok o) {f : Feature} {p : ScenarioPlace} (hp : p ∈ f.places) :
    (o.planAt f p).selected = true ↔ c.Selects f p := by
  obtain ⟨hnames, hlocations, htags⟩ := compile_ok h
  have haccepts : o.selection.tags.accepts (o.planAt f p).tags.names = true ↔
      ∀ text ∈ c.tags, ∃ e, TagExpression.parse text = .ok e ∧
        e.holds (f.tagNamesAt p) = true := by
    rw [compileTags_ok htags]
    refine forall₂_congr fun text _ => exists_congr fun e => and_congr_right fun _ => ?_
    rw [TagExpression.holds_congr (Feature.mem_names_planAt o hp)]
  have hfound := any_isFoundIn_iff hnames p.scenario.name
  have hpicked := any_picks_iff hlocations hp
  change (o.selection.tags.accepts (o.planAt f p).tags.names && _ && _) = true ↔ _
  rw [Bool.and_eq_true, Bool.and_eq_true, Bool.or_eq_true, Bool.or_eq_true, haccepts,
    List.isEmpty_iff, (compileNames_ok hnames).1, List.isEmpty_iff,
    (compileLocations_ok hlocations).1]
  constructor
  · rintro ⟨⟨hall, hname⟩, hlocation⟩
    exact ⟨hall, hname.imp_right hfound.1, hlocation.imp_right hpicked.1⟩
  · rintro ⟨hall, hname, hlocation⟩
    exact ⟨⟨hall, hname.imp_right hfound.2⟩, hlocation.imp_right hpicked.2⟩

end RunConfig

end Rehearsal
