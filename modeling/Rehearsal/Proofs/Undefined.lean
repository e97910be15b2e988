import Rehearsal.Proofs.Account.Crew
import Rehearsal.Proofs.Suggestion

/-!
# The list of undefined steps

A step that nothing matches is sighted in every scenario that lists it, and the same place and text
may be sighted over and over: a background once for each scenario, a step of an outline once for
each row. The list of a run has an entry for the first sighting of each key, in the order of the
documents, and none for the others (`RunResult.ListsUndefined`).

The registrar that an entry names is the one for the type of that first step.
-/

namespace Rehearsal

/-- An undefined step in the tree of results, with the path of its document. -/
structure Sighting where
  path : String
  step : StepResult

namespace Sighting

/-- What tells undefined steps apart. -/
def key (x : Sighting) : String × ℕ × String := (x.path, x.step.line, x.step.text)

def entry (x : Sighting) : UndefinedStep := .ofStep x.path x.step

/-- The sighting stands at the index, and none before it has its key. -/
def FirstAt (xs : List Sighting) (i : ℕ) (x : Sighting) : Prop :=
  xs[i]? = some x ∧ ∀ j y, j < i → xs[j]? = some y → y.key ≠ x.key

end Sighting

/-- What tells entries apart. -/
def UndefinedStep.key (u : UndefinedStep) : String × ℕ × String := (u.path, u.line, u.text)

theorem Sighting.key_entry (x : Sighting) : x.entry.key = x.key := rfl

theorem UndefinedStep.isSame_iff (u v : UndefinedStep) : u.isSame v = true ↔ u.key = v.key := by
  simp [isSame, key, and_assoc]

namespace Sighting

theorem firstAt_zero_iff {x : Sighting} {rest : List Sighting} {y : Sighting} :
    FirstAt (x :: rest) 0 y ↔ x = y := by
  simp [FirstAt]

/-- Behind a sighting, the first ones are those that are first among themselves and have another
key. -/
theorem firstAt_succ_iff {x : Sighting} {rest : List Sighting} {i : ℕ} {y : Sighting} :
    FirstAt (x :: rest) (i + 1) y ↔ FirstAt rest i y ∧ x.key ≠ y.key := by
  constructor
  · rintro ⟨hy, hfirst⟩
    exact ⟨⟨hy, fun j z hj hz => hfirst (j + 1) z (Nat.succ_lt_succ hj) hz⟩,
      hfirst 0 x (Nat.zero_lt_succ i) rfl⟩
  · rintro ⟨⟨hy, hfirst⟩, hne⟩
    refine ⟨hy, fun j z hj hz => ?_⟩
    cases j with
    | zero =>
      obtain rfl := Option.some.inj hz
      exact hne
    | succ j => exact hfirst j z (Nat.lt_of_succ_lt_succ hj) hz

theorem exists_firstAt {xs : List Sighting} {x : Sighting} (hx : x ∈ xs) :
    ∃ i y, FirstAt xs i y ∧ y.key = x.key := by
  induction xs with
  | nil => cases hx
  | cons a rest ih =>
    by_cases hkey : a.key = x.key
    · exact ⟨0, a, firstAt_zero_iff.2 rfl, hkey⟩
    · have hmem : x ∈ rest := by
        rcases List.mem_cons.1 hx with rfl | hmem
        · exact absurd rfl hkey
        · exact hmem
      obtain ⟨i, y, hfirst, hy⟩ := ih hmem
      exact ⟨i + 1, y, firstAt_succ_iff.2 ⟨hfirst, fun heq => hkey (heq.trans hy)⟩, hy⟩

end Sighting

/-- The first entries of some sightings are those of the first sightings, in their order. -/
theorem UndefinedStep.exists_firsts (xs : List Sighting) :
    ∃ ps : List (ℕ × Sighting), ps.Pairwise (fun p q => p.1 < q.1) ∧
      (∀ i x, (i, x) ∈ ps ↔ Sighting.FirstAt xs i x) ∧
      firsts (xs.map (·.entry)) = ps.map fun p => p.2.entry := by
  induction xs with
  | nil => exact ⟨[], .nil, by simp [Sighting.FirstAt], rfl⟩
  | cons a rest ih =>
    obtain ⟨ps, hordered, hmem, hfirsts⟩ := ih
    -- the first sightings behind `a` that have another key, each one place further on
    let others := (ps.filter fun p => !a.entry.isSame p.2.entry).map fun p => (p.1 + 1, p.2)
    have hothers : ∀ i x, (i, x) ∈ others ↔
        ∃ j, i = j + 1 ∧ Sighting.FirstAt rest j x ∧ a.key ≠ x.key := by
      intro i x
      simp only [others, List.mem_map, List.mem_filter, Bool.not_eq_true', ← Bool.not_eq_true,
        isSame_iff, Sighting.key_entry, Prod.mk.injEq]
      constructor
      · rintro ⟨⟨j, y⟩, ⟨hp, hne⟩, rfl, rfl⟩
        exact ⟨j, rfl, (hmem j y).1 hp, hne⟩
      · rintro ⟨j, rfl, hfirst, hne⟩
        exact ⟨(j, x), ⟨(hmem j x).2 hfirst, hne⟩, rfl, rfl⟩
    refine ⟨(0, a) :: others, List.pairwise_cons.2 ⟨fun p hp => ?_, ?_⟩, fun i x => ?_, ?_⟩
    · obtain ⟨j, hj, -⟩ := (hothers p.1 p.2).1 hp
      rw [hj]
      exact Nat.zero_lt_succ j
    · exact List.pairwise_map.2 ((hordered.filter _).imp Nat.succ_lt_succ)
    · rw [List.mem_cons, hothers, Prod.mk.injEq]
      cases i with
      | zero => simp [Sighting.firstAt_zero_iff, eq_comm]
      | succ i => simp [Sighting.firstAt_succ_iff]
    · rw [List.map_cons, firsts, hfirsts, List.map_cons, List.map_map, List.filter_map]
      rfl

namespace RunResult

/-- The undefined steps of a result, in the order of the documents. -/
def sightings (r : RunResult) : List Sighting :=
  r.features.flatMap fun f =>
    ((f.scenarios.flatMap (·.steps)).filter fun s => s.status = .undefined).map fun s => ⟨f.path, s⟩

theorem collect_eq_firsts (r : RunResult) :
    UndefinedStep.collect r.features = UndefinedStep.firsts (r.sightings.map (·.entry)) := by
  rw [UndefinedStep.collect, sightings, List.map_flatMap]
  refine congrArg (fun g => UndefinedStep.firsts (r.features.flatMap g)) (funext fun f => ?_)
  rw [UndefinedStep.ofFeature, List.map_map]
  exact congrArg (List.map _) (List.filter_congr fun s _ => by simp [beq_eq_decide])

theorem exists_sighting_iff (r : RunResult) (k : String × ℕ × String) :
    (∃ x ∈ r.sightings, x.key = k) ↔ ∃ f ∈ r.features, ∃ sc ∈ f.scenarios, ∃ s ∈ sc.steps,
      s.status = .undefined ∧ (f.path, s.line, s.text) = k := by
  simp only [sightings, List.mem_flatMap, List.mem_map, List.mem_filter, decide_eq_true_eq]
  constructor
  · rintro ⟨_, ⟨f, hf, s, ⟨⟨sc, hsc, hs⟩, hstatus⟩, rfl⟩, hkey⟩
    exact ⟨f, hf, sc, hsc, s, hs, hstatus, hkey⟩
  · rintro ⟨f, hf, sc, hsc, s, hs, hstatus, hkey⟩
    exact ⟨_, ⟨f, hf, s, ⟨⟨sc, hsc, hs⟩, hstatus⟩, rfl⟩, hkey⟩

end RunResult

/-- A definition that is added with the registrar for the type has a class that accepts it. -/
def Registrable (type : Option KeywordClass) : Prop :=
  ∀ {W : Type} (r r' : Registry W) (pattern : String) (asRegex : Bool) (location : CodeLocation)
    (implementation : StepCall → Script W Outcome),
    r.register (.ofRegistrar (registrar type)) pattern asRegex location implementation = .ok r' →
    ∃ d, r' = r.add d ∧ d.patternClass.accepts type = true

theorem registrable (type : Option KeywordClass) : Registrable type := by
  intro W r r' pattern asRegex location implementation h
  rw [Registry.register_eq_map] at h
  obtain ⟨p, -, rfl⟩ := PatternPiece.exists_of_map_eq_ok h
  exact ⟨_, rfl, PatternClass.accepts_ofRegistrar type⟩

theorem StepResult.exists_snippet_eq (s : StepResult) :
    ∃ rest, s.snippet = "registry." ++ registrar s.stepType ++ "(" ++ rest := by
  have hopen : "(r#\"" = "(" ++ "r#\"" := rfl
  unfold snippet
  rw [hopen]
  simp only [String.append_assoc]
  exact ⟨_, rfl⟩

namespace RunResult

/-- The list of undefined steps is complete and free of repetitions. -/
structure ListsUndefined (r : RunResult) : Prop where
  /-- The entries are those of the sightings that are the first ones of their keys, in order. -/
  firsts : ∃ ps : List (ℕ × Sighting), ps.Pairwise (fun p q => p.1 < q.1) ∧
    (∀ i x, (i, x) ∈ ps ↔ Sighting.FirstAt r.sightings i x) ∧
    r.undefined = ps.map fun p => p.2.entry
  keys_nodup : (r.undefined.map (·.key)).Nodup
  mem_keys_iff : ∀ k, k ∈ r.undefined.map (·.key) ↔ ∃ f ∈ r.features, ∃ sc ∈ f.scenarios,
    ∃ s ∈ sc.steps, s.status = .undefined ∧ (f.path, s.line, s.text) = k
  eq_nil_iff : r.undefined = [] ↔ ∀ sc ∈ r.scenarios, ∀ s ∈ sc.steps, s.status ≠ .undefined
  /-- The code of an entry names the registrar for the type of the first step with the key. -/
  snippets : ∀ u ∈ r.undefined, ∃ i x rest, Sighting.FirstAt r.sightings i x ∧ u.key = x.key ∧
    u.snippet = "registry." ++ registrar x.step.stepType ++ "(" ++ rest ∧
    Registrable x.step.stepType

variable {r : RunResult}

theorem undefined_eq_nil_iff (hkeys : ∀ k, k ∈ r.undefined.map (·.key) ↔ ∃ f ∈ r.features,
      ∃ sc ∈ f.scenarios, ∃ s ∈ sc.steps, s.status = .undefined ∧ (f.path, s.line, s.text) = k) :
    r.undefined = [] ↔ ∀ sc ∈ r.scenarios, ∀ s ∈ sc.steps, s.status ≠ .undefined := by
  constructor
  · intro hnil sc hsc s hs hstatus
    obtain ⟨f, hf, hsc⟩ := List.mem_flatMap.1 hsc
    have hkey := (hkeys (f.path, s.line, s.text)).2 ⟨f, hf, sc, hsc, s, hs, hstatus, rfl⟩
    rw [hnil] at hkey
    cases hkey
  · intro hnone
    refine List.eq_nil_iff_forall_not_mem.2 fun u hu => ?_
    obtain ⟨f, hf, sc, hsc, s, hs, hstatus, -⟩ :=
      (hkeys u.key).1 (List.mem_map_of_mem (f := UndefinedStep.key) hu)
    exact hnone sc (List.mem_flatMap.2 ⟨f, hf, hsc⟩) s hs hstatus

section Firsts

variable {ps : List (ℕ × Sighting)} (hmem : ∀ i x, (i, x) ∈ ps ↔ Sighting.FirstAt r.sightings i x)
include hmem

theorem nodup_keys_firsts (hordered : ps.Pairwise fun p q => p.1 < q.1) :
    (ps.map fun p => p.2.entry.key).Nodup := by
  refine List.pairwise_map.2 (hordered.imp_of_mem fun {p q} hp hq hlt hkey => ?_)
  exact ((hmem q.1 q.2).1 hq).2 p.1 p.2 hlt ((hmem p.1 p.2).1 hp).1 hkey

theorem mem_keys_firsts_iff (k : String × ℕ × String) :
    k ∈ ps.map (fun p => p.2.entry.key) ↔ ∃ x ∈ r.sightings, x.key = k := by
  rw [List.mem_map]
  constructor
  · rintro ⟨p, hp, rfl⟩
    exact ⟨p.2, List.mem_of_getElem? ((hmem p.1 p.2).1 hp).1, rfl⟩
  · rintro ⟨x, hx, rfl⟩
    obtain ⟨i, y, hfirst, hkey⟩ := Sighting.exists_firstAt hx
    exact ⟨(i, y), (hmem i y).2 hfirst, hkey⟩

end Firsts

theorem listsUndefined_of_collect (h : r.undefined = UndefinedStep.collect r.features) :
    r.ListsUndefined := by
  obtain ⟨ps, hordered, hmem, hfirsts⟩ := UndefinedStep.exists_firsts r.sightings
  have hlist : r.undefined = ps.map fun p => p.2.entry := by rw [h, collect_eq_firsts, hfirsts]
  have hkeys : r.undefined.map (·.key) = ps.map fun p => p.2.entry.key := by
    rw [hlist, List.map_map]
    rfl
  have hcomplete : ∀ k, k ∈ r.undefined.map (·.key) ↔ ∃ f ∈ r.features, ∃ sc ∈ f.scenarios,
      ∃ s ∈ sc.steps, s.status = .undefined ∧ (f.path, s.line, s.text) = k := by
    intro k
    rw [hkeys, mem_keys_firsts_iff hmem, exists_sighting_iff]
  refine ⟨⟨ps, hordered, hmem, hlist⟩, hkeys ▸ nodup_keys_firsts hmem hordered, hcomplete,
    undefined_eq_nil_iff hcomplete, fun u hu => ?_⟩
  rw [hlist] at hu
  obtain ⟨p, hp, rfl⟩ := List.mem_map.1 hu
  obtain ⟨rest, hsnippet⟩ := p.2.step.exists_snippet_eq
  exact ⟨p.1, p.2, rest, (hmem p.1 p.2).1 hp, rfl, hsnippet, registrable _⟩

end RunResult

end Rehearsal
