import Mathlib.Data.List.Chain
import Rehearsal.Proofs.Expansion

/-!
# The types of conjunctions

A list of steps is built step by step, and a conjunction takes over the type of the step before it
(`Step.Linked`, which is kept by each step that is added). So the type of a step is the class of the
last step up to it that is no conjunction (`Step.NearestClass`), and a step has none if all steps up
to it are conjunctions. The check therefore misses a type in a node exactly if its steps begin with
a conjunction, whatever stands in the backgrounds before it.
-/

namespace Rehearsal

/-! ### Calls that add a step -/

/-- The step is made with one of the constructors: whatever is set later, its type is the one that
its keyword alone gives it. -/
inductive Step.Made : Step → Prop where
  | ofClass (c : KeywordClass) (text : String) : Made (ofClass c text)
  | keyword {s : Step} (h : Made s) (keyword : String) : Made { s with keyword := keyword }
  | argument {s : Step} (h : Made s) (a : StepArgument) : Made { s with argument := some a }
  | line {s : Step} (h : Made s) (line : ℕ) : Made { s with line := line }

theorem Step.made_iff (s : Step) : s.Made ↔ s.stepType = s.keywordClass.ownType := by
  constructor
  · intro h
    induction h with
    | ofClass c text => rfl
    | keyword h keyword ih => exact ih
    | argument h a ih => exact ih
    | line h line ih => exact ih
  · obtain ⟨keyword, c, stepType, text, argument, line⟩ := s
    intro htype
    obtain rfl : stepType = c.ownType := htype
    have hplain := ((Made.ofClass c text).keyword keyword).line line
    cases argument with
    | none => exact hplain
    | some a => exact hplain.argument a

/-- A call that adds a step: `plain` for the four keywords, one for `But`, and one for a step that
was made before. -/
inductive StepAddition where
  | plain (c : KeywordClass) (text : String)
  | but (text : String)
  | step (s : Step) (made : s.Made)

def StepAddition.added : StepAddition → Step
  | plain c text => .ofClass c text
  | but text => .but text
  | step s _ => s

theorem StepAddition.made_added (a : StepAddition) : a.added.Made := by
  cases a with
  | plain c text => exact .ofClass c text
  | but text => exact (Step.Made.ofClass .conjunction text).keyword "But"
  | step s made => exact made

/-- What has a list of steps of its own. -/
inductive StepNode where
  | background (b : Background)
  | scenario (sc : Scenario)
  | outline (o : Outline)

namespace StepNode

def steps : StepNode → List Step
  | background b => b.steps
  | scenario sc => sc.steps
  | outline o => o.steps

def add (a : StepAddition) : StepNode → StepNode
  | background b => background (b.step a.added)
  | scenario sc => scenario (sc.step a.added)
  | outline o => outline (o.step a.added)

def build (n : StepNode) (calls : List StepAddition) : StepNode :=
  calls.foldl (fun n a => n.add a) n

def violation? (path : String) : StepNode → Option Malformed
  | background b => Background.violation? path (some b)
  | scenario sc => Definition.violation? path (.scenario sc)
  | outline o => Definition.violation? path (.outline o)

def ofDefinition : Definition → StepNode
  | .scenario sc => scenario sc
  | .outline o => outline o

theorem violation?_ofDefinition (path : String) (d : Definition) :
    (ofDefinition d).violation? path = d.violation? path := by
  cases d <;> rfl

theorem steps_add (a : StepAddition) (n : StepNode) :
    (n.add a).steps = Step.push n.steps a.added := by
  cases n <;> rfl

theorem steps_build (n : StepNode) (calls : List StepAddition) :
    (n.build calls).steps = (calls.map (·.added)).foldl Step.push n.steps := by
  induction calls generalizing n with
  | nil => rfl
  | cons a rest ih => rw [build, List.foldl_cons, ← build, ih, steps_add, List.map_cons,
      List.foldl_cons]

end StepNode

/-! ### Types along a list of steps -/

theorem KeywordClass.ownType_eq_some_iff (c d : KeywordClass) :
    c.ownType = some d ↔ c = d ∧ d ≠ .conjunction := by
  cases c <;> cases d <;> decide

theorem KeywordClass.ownType_eq_none_iff (c : KeywordClass) :
    c.ownType = none ↔ c = .conjunction := by
  cases c <;> decide

namespace Step

/-- A step that is added has the type of its own keyword or else that of the step before it. -/
theorem Made.stepType_resolve {s : Step} (h : s.Made) (before : Option Step) :
    (s.resolve before).stepType = s.keywordClass.ownType.or (before.bind (·.stepType)) := by
  have hown := s.made_iff.1 h
  unfold resolve
  cases hclass : s.keywordClass with
  | conjunction => rfl
  | _ => rw [hown, hclass]; rfl

/-- The second step has the type of its own keyword or else that of the first one. -/
def Inherits (s s' : Step) : Prop := s'.stepType = s'.keywordClass.ownType.or s.stepType

/-- Every step has the type of its own keyword or else that of the step before it. -/
structure Linked (steps : List Step) : Prop where
  first : ∀ s ∈ steps.head?, s.stepType = s.keywordClass.ownType
  next : steps.IsChain Inherits

theorem linked_nil : Linked [] := ⟨by simp, .nil⟩

theorem Linked.push {steps : List Step} (h : Linked steps) {s : Step} (hs : s.Made) :
    Linked (Step.push steps s) := by
  constructor
  · cases steps with
    | nil =>
      rintro t ⟨⟩
      rw [hs.stepType_resolve, keywordClass_resolve]
      exact Option.or_none
    | cons t rest => exact h.first
  · refine h.next.append (.singleton _) fun t ht r hr => ?_
    obtain rfl := Option.some.inj hr
    rw [Inherits, hs.stepType_resolve, keywordClass_resolve, Option.mem_def.1 ht]
    rfl

theorem Linked.foldl_push {steps : List Step} (h : Linked steps) {more : List Step}
    (hmore : ∀ s ∈ more, s.Made) : Linked (more.foldl Step.push steps) := by
  induction more generalizing steps with
  | nil => exact h
  | cons s rest ih =>
    rw [List.forall_mem_cons] at hmore
    exact ih (h.push hmore.1) hmore.2

theorem linked_build {steps : List Step} (h : ∀ s ∈ steps, s.Made) : Linked (build steps) :=
  linked_nil.foldl_push h

/-- The last step up to the index that is no conjunction has the class. -/
def NearestClass (steps : List Step) (k : ℕ) (c : KeywordClass) : Prop :=
  ∃ j s, j ≤ k ∧ steps[j]? = some s ∧ s.keywordClass = c ∧ c ≠ .conjunction ∧
    ∀ i t, j < i → i ≤ k → steps[i]? = some t → t.keywordClass = .conjunction

theorem nearestClass_zero {steps : List Step} {s : Step} (hs : steps[0]? = some s)
    (c : KeywordClass) : NearestClass steps 0 c ↔ s.keywordClass.ownType = some c := by
  rw [KeywordClass.ownType_eq_some_iff]
  constructor
  · rintro ⟨j, t, hj, ht, hclass, hc, -⟩
    obtain rfl := Nat.le_zero.1 hj
    obtain rfl := Option.some.inj (hs.symm.trans ht)
    exact ⟨hclass, hc⟩
  · rintro ⟨hclass, hc⟩
    exact ⟨0, s, Nat.le_refl 0, hs, hclass, hc, fun i t hi hle => by omega⟩

theorem nearestClass_succ {steps : List Step} {k : ℕ} {s : Step} (hs : steps[k + 1]? = some s)
    (c : KeywordClass) : NearestClass steps (k + 1) c ↔
      s.keywordClass.ownType = some c ∨ s.keywordClass.ownType = none ∧ NearestClass steps k c := by
  rw [KeywordClass.ownType_eq_some_iff, KeywordClass.ownType_eq_none_iff]
  constructor
  · rintro ⟨j, t, hj, ht, hclass, hc, hafter⟩
    rcases Nat.lt_or_eq_of_le hj with hlt | rfl
    · exact .inr ⟨hafter (k + 1) s hlt (Nat.le_refl _) hs, j, t, Nat.le_of_lt_succ hlt, ht, hclass,
        hc, fun i u hi hle => hafter i u hi (Nat.le_succ_of_le hle)⟩
    · obtain rfl := Option.some.inj (hs.symm.trans ht)
      exact .inl ⟨hclass, hc⟩
  · rintro (⟨hclass, hc⟩ | ⟨hconjunction, j, t, hj, ht, hclass, hc, hafter⟩)
    · exact ⟨k + 1, s, Nat.le_refl _, hs, hclass, hc, fun i t hi hle => by omega⟩
    · refine ⟨j, t, Nat.le_succ_of_le hj, ht, hclass, hc, fun i u hi hle hu => ?_⟩
      rcases Nat.lt_or_eq_of_le hle with hlt | rfl
      · exact hafter i u hi (Nat.le_of_lt_succ hlt) hu
      · obtain rfl := Option.some.inj (hs.symm.trans hu)
        exact hconjunction

namespace Linked

variable {steps : List Step} (h : Linked steps)
include h

theorem stepType_first {s : Step} (hs : steps[0]? = some s) :
    s.stepType = s.keywordClass.ownType :=
  h.first s (List.head?_eq_getElem?.trans hs)

theorem exists_before {k : ℕ} {s : Step} (hs : steps[k + 1]? = some s) :
    ∃ t, steps[k]? = some t ∧ s.stepType = s.keywordClass.ownType.or t.stepType := by
  obtain ⟨hlt, rfl⟩ := List.getElem?_eq_some_iff.1 hs
  exact ⟨_, List.getElem?_eq_getElem _, List.isChain_iff_getElem.1 h.next k hlt⟩

/-- The type of a step is the class of the last step up to it that is no conjunction. -/
theorem stepType_eq_some_iff {k : ℕ} {s : Step} (hs : steps[k]? = some s) (c : KeywordClass) :
    s.stepType = some c ↔ NearestClass steps k c := by
  induction k generalizing s with
  | zero => rw [nearestClass_zero hs, h.stepType_first hs]
  | succ k ih =>
    obtain ⟨t, ht, htype⟩ := h.exists_before hs
    rw [nearestClass_succ hs, htype, Option.or_eq_some_iff, ih ht]

/-- A step has no type if all steps up to it are conjunctions. -/
theorem stepType_eq_none_iff {k : ℕ} {s : Step} (hs : steps[k]? = some s) :
    s.stepType = none ↔ ∀ j t, j ≤ k → steps[j]? = some t → t.keywordClass = .conjunction := by
  induction k generalizing s with
  | zero =>
    rw [h.stepType_first hs, KeywordClass.ownType_eq_none_iff]
    constructor
    · intro hclass j t hj ht
      obtain rfl := Nat.le_zero.1 hj
      obtain rfl := Option.some.inj (hs.symm.trans ht)
      exact hclass
    · exact fun hall => hall 0 s (Nat.le_refl 0) hs
  | succ k ih =>
    obtain ⟨t, ht, htype⟩ := h.exists_before hs
    rw [htype, Option.or_eq_none_iff, KeywordClass.ownType_eq_none_iff, ih ht]
    constructor
    · rintro ⟨hclass, hall⟩ j u hj hu
      rcases Nat.lt_or_eq_of_le hj with hlt | rfl
      · exact hall j u (Nat.le_of_lt_succ hlt) hu
      · obtain rfl := Option.some.inj (hs.symm.trans hu)
        exact hclass
    · intro hall
      exact ⟨hall (k + 1) s (Nat.le_refl _) hs, fun j u hj => hall j u (Nat.le_succ_of_le hj)⟩

/-- All steps have a type unless the first one is a conjunction. -/
theorem isSome_stepType {s : Step} (hfirst : ∀ t, steps.head? = some t →
    t.keywordClass ≠ .conjunction) (hs : s ∈ steps) : s.stepType.isSome = true := by
  obtain ⟨k, hk⟩ := List.getElem?_of_mem hs
  rw [Option.isSome_iff_ne_none, ne_eq, h.stepType_eq_none_iff hk]
  intro hall
  have hlt := (List.getElem?_eq_some_iff.1 hk).1
  have hhead : steps[0]? = some steps[0] := List.getElem?_eq_getElem (Nat.zero_lt_of_lt hlt)
  exact hfirst _ (List.head?_eq_getElem?.trans hhead) (hall 0 _ (Nat.zero_le k) hhead)

end Linked

/-- Adding steps sets their types and nothing else. -/
theorem exists_foldl_push (steps more : List Step) :
    ∃ added, more.foldl push steps = steps ++ added ∧
      List.Forall₂ (fun s s' => s' = { s with stepType := s'.stepType }) more added := by
  induction more generalizing steps with
  | nil => exact ⟨[], by simp, .nil⟩
  | cons s rest ih =>
    obtain ⟨added, hadded, hsame⟩ := ih (push steps s)
    refine ⟨s.resolve steps.getLast? :: added, by rw [List.foldl_cons, hadded, push]; simp, ?_⟩
    refine .cons ?_ hsame
    unfold resolve
    split <;> rfl

end Step

/-! ### The check -/

/-- It is a type that is missing. -/
def Malformed.MissesType (m : Malformed) : Prop :=
  ∃ keyword text, m.violation = .noType keyword text

theorem Table.not_missesType {path : String} {t : Table} {m : Malformed}
    (h : t.violation? path = some m) : ¬ m.MissesType := by
  obtain ⟨row, -, rfl⟩ := Option.map_eq_some_iff.1 h
  rintro ⟨keyword, text, ⟨⟩⟩

theorem Step.violation?_of_none {s : Step} (path : String) (h : s.stepType = none) :
    s.violation? path = some ⟨path, s.line, .noType s.keyword s.text⟩ := by
  rw [violation?, h]
  rfl

theorem Step.not_missesType {path : String} {s : Step} {m : Malformed}
    (hs : s.stepType.isSome = true) (h : s.violation? path = some m) : ¬ m.MissesType := by
  rw [violation?, if_neg (by simpa using Option.isSome_iff_ne_none.1 hs)] at h
  obtain ⟨t, -, ht⟩ := Option.bind_eq_some_iff.1 h
  exact Table.not_missesType ht

theorem Outline.not_missesType_block {path : String} {o : Outline} {e : Examples} {m : Malformed}
    (h : o.blockViolation? path e = some m) : ¬ m.MissesType := by
  rw [blockViolation?] at h
  split at h
  · rename_i m' hm'
    obtain rfl := Option.some.inj h
    exact Table.not_missesType hm'
  · split at h
    · obtain rfl := Option.some.inj h
      rintro ⟨keyword, text, ⟨⟩⟩
    · obtain ⟨hole, -, rfl⟩ := Option.map_eq_some_iff.1 h
      rintro ⟨keyword, text, ⟨⟩⟩

/-- Only the steps of an outline may miss a type. -/
theorem Outline.violation?_missesType_iff {path : String} {o : Outline} {m : Malformed} :
    o.violation? path = some m ∧ m.MissesType ↔
      firstViolation (Step.violation? path) o.steps = some m ∧ m.MissesType := by
  refine and_congr_left fun hmisses => ?_
  rw [violation?]
  cases hsteps : firstViolation (Step.violation? path) o.steps with
  | some m' => rfl
  | none =>
    refine ⟨fun h => absurd hmisses ?_, fun h => by cases h⟩
    dsimp only at h
    split at h
    · obtain rfl := Option.some.inj h
      rintro ⟨keyword, text, ⟨⟩⟩
    · obtain ⟨-, e, -, -, -, he⟩ := (firstViolation_eq_some_iff _ _ _).1 h
      exact Outline.not_missesType_block he

/-- The check of steps that begin with a conjunction stops there. -/
theorem Step.Linked.violation?_of_conjunction {steps : List Step} (h : Linked steps) (path : String)
    {s : Step} (hs : steps.head? = some s) (hclass : s.keywordClass = .conjunction) :
    firstViolation (Step.violation? path) steps =
      some ⟨path, s.line, .noType s.keyword s.text⟩ := by
  have htype := h.first s hs
  rw [hclass] at htype
  cases steps with
  | nil => cases hs
  | cons t rest =>
    obtain rfl := Option.some.inj hs
    rw [firstViolation, Step.violation?_of_none path htype]

/-- In a list of linked steps the check misses a type exactly if the first step is a conjunction,
and then that of the first step. -/
theorem Step.Linked.missesType_iff {steps : List Step} (h : Linked steps) {path : String}
    {m : Malformed} :
    firstViolation (Step.violation? path) steps = some m ∧ m.MissesType ↔
      ∃ s, steps.head? = some s ∧ s.keywordClass = .conjunction ∧
        m = ⟨path, s.line, .noType s.keyword s.text⟩ := by
  constructor
  · rintro ⟨hm, hmisses⟩
    by_cases hfirst : ∀ t, steps.head? = some t → t.keywordClass ≠ .conjunction
    · obtain ⟨before, s, after, hsplit, -, hs⟩ := (firstViolation_eq_some_iff _ _ _).1 hm
      have hmem : s ∈ steps := by simp [hsplit]
      exact absurd hmisses (Step.not_missesType (h.isSome_stepType hfirst hmem) hs)
    · obtain ⟨s, hs⟩ := not_forall.1 hfirst
      rw [Classical.not_imp, Decidable.not_not] at hs
      rw [h.violation?_of_conjunction path hs.1 hs.2] at hm
      exact ⟨s, hs.1, hs.2, (Option.some.inj hm).symm⟩
  · rintro ⟨s, hs, hclass, rfl⟩
    exact ⟨h.violation?_of_conjunction path hs hclass, _, _, rfl⟩

theorem StepNode.missesType_iff {n : StepNode} (h : Step.Linked n.steps) {path : String}
    {m : Malformed} :
    n.violation? path = some m ∧ m.MissesType ↔
      ∃ s, n.steps.head? = some s ∧ s.keywordClass = .conjunction ∧
        m = ⟨path, s.line, .noType s.keyword s.text⟩ := by
  cases n with
  | background b => exact h.missesType_iff
  | scenario sc => exact h.missesType_iff
  | outline o => exact Outline.violation?_missesType_iff.trans h.missesType_iff

/-! ### The place of a node -/

theorem firstViolation_of_split {check : α → Option Malformed} {before after : List α} {a : α}
    {m : Malformed} (hbefore : ∀ b ∈ before, check b = none) (ha : check a = some m) :
    firstViolation check (before ++ a :: after) = some m :=
  (firstViolation_eq_some_iff _ _ _).2 ⟨before, a, after, rfl, hbefore, ha⟩

/-- The check of the feature comes to the node: it stands in the feature, and what is checked before
it passes, whatever steps that holds. -/
inductive Feature.Reaches (f : Feature) : StepNode → Prop where
  | background {b : Background} (hb : f.background = some b) : f.Reaches (.background b)
  | child {before after : List FeatureChild} {d : Definition}
      (hbackground : Background.violation? f.path f.background = none)
      (hchildren : f.children = before ++ .definition d :: after)
      (hbefore : ∀ c ∈ before, c.violation? f.path = none) : f.Reaches (.ofDefinition d)
  | ruleBackground {before after : List FeatureChild} {r : Rule} {b : Background}
      (hbackground : Background.violation? f.path f.background = none)
      (hchildren : f.children = before ++ .rule r :: after)
      (hbefore : ∀ c ∈ before, c.violation? f.path = none)
      (hb : r.background = some b) : f.Reaches (.background b)
  | ruleChild {before after : List FeatureChild} {r : Rule} {first last : List Definition}
      {d : Definition} (hbackground : Background.violation? f.path f.background = none)
      (hchildren : f.children = before ++ .rule r :: after)
      (hbefore : ∀ c ∈ before, c.violation? f.path = none)
      (hrule : Background.violation? f.path r.background = none)
      (hin : r.children = first ++ d :: last)
      (hfirst : ∀ c ∈ first, c.violation? f.path = none) : f.Reaches (.ofDefinition d)

/-- What is wrong with the node that the check comes to is reported. -/
theorem Feature.Reaches.violation? {f : Feature} {n : StepNode} (h : f.Reaches n) {m : Malformed}
    (hm : n.violation? f.path = some m) : f.violation? = some m := by
  rw [Feature.violation?]
  cases h with
  | background hb => rw [hb, show Background.violation? f.path (some _) = some m from hm]
  | child hbackground hchildren hbefore =>
    rw [StepNode.violation?_ofDefinition] at hm
    rw [hbackground, hchildren]
    exact firstViolation_of_split hbefore hm
  | @ruleBackground before after r b hbackground hchildren hbefore hb =>
    have hr : r.violation? f.path = some m := by
      rw [Rule.violation?, hb, show Background.violation? f.path (some _) = some m from hm]
    rw [hbackground, hchildren]
    exact firstViolation_of_split hbefore hr
  | @ruleChild before after r first last d hbackground hchildren hbefore hrule hin hfirst =>
    rw [StepNode.violation?_ofDefinition] at hm
    have hr : r.violation? f.path = some m := by
      rw [Rule.violation?, hrule, hin]
      exact firstViolation_of_split hfirst hm
    rw [hbackground, hchildren]
    exact firstViolation_of_split hbefore hr

/-! ### Nodes that are built -/

theorem Outline.map_stepType_of_mem_expand {o : Outline} {sc : Scenario} (h : sc ∈ o.expand) :
    sc.steps.map (fun s => (s.keywordClass, s.stepType)) =
      o.steps.map fun s => (s.keywordClass, s.stepType) := by
  rw [expand_eq_map_entries] at h
  obtain ⟨x, -, rfl⟩ := List.mem_map.1 h
  rw [scenarioOf, List.map_map]
  rfl

namespace StepNode

/-- However steps are added to a node without steps, the type of a step is the class of the last
step up to it that is no conjunction, and it has none if there is no such step. The check misses a
type in the node exactly if its steps begin with a conjunction, and names the first step then; so
does that of a feature which comes to the node. The scenarios of an outline have the types of its
steps. -/
theorem conjunctions_resolve (n : StepNode) (hempty : n.steps = []) (calls : List StepAddition) :
    List.Forall₂ (fun a s => s = { a.added with stepType := s.stepType }) calls
      (n.build calls).steps ∧
    (∀ k s, (n.build calls).steps[k]? = some s →
      (∀ c, s.stepType = some c ↔ Step.NearestClass (n.build calls).steps k c) ∧
      (s.stepType = none ↔ ∀ j t, j ≤ k → (n.build calls).steps[j]? = some t →
        t.keywordClass = .conjunction)) ∧
    (∀ path m, (n.build calls).violation? path = some m ∧ m.MissesType ↔
      ∃ s, (n.build calls).steps.head? = some s ∧ s.keywordClass = .conjunction ∧
        m = ⟨path, s.line, .noType s.keyword s.text⟩) ∧
    (∀ f : Feature, f.Reaches (n.build calls) → ∀ m,
      (n.build calls).violation? f.path = some m → f.violation? = some m) ∧
    ∀ o, n.build calls = .outline o → ∀ sc ∈ o.expand,
      sc.steps.map (fun s => (s.keywordClass, s.stepType)) =
        o.steps.map fun s => (s.keywordClass, s.stepType) := by
  have hbuilt : (n.build calls).steps = Step.build (calls.map (·.added)) := by
    rw [steps_build, hempty, Step.build]
  have hlinked : Step.Linked (n.build calls).steps := by
    rw [hbuilt]
    exact Step.linked_build (List.forall_mem_map.2 fun a _ => a.made_added)
  refine ⟨?_, fun k s hs => ⟨hlinked.stepType_eq_some_iff hs, hlinked.stepType_eq_none_iff hs⟩,
    fun path m => missesType_iff hlinked, fun f hf m hm => hf.violation? hm,
    fun o _ sc hsc => Outline.map_stepType_of_mem_expand hsc⟩
  obtain ⟨added, hadded, hsame⟩ := Step.exists_foldl_push [] (calls.map (·.added))
  rw [hbuilt, Step.build, hadded, List.nil_append]
  exact List.forall₂_map_left_iff.1 hsame

/-- A scenario that begins with a conjunction, after a background that ends with a type. -/
theorem conjunctions_resolve_but :
    let n := (scenario (.named "scenario")).build
      [.but "a door", .plain .context "a room", .plain .conjunction "a key"]
    let f := { Feature.named "feature" with
      path := "a.feature"
      background := some { Background.blank with steps := [.ofClass .context "a house"] }
      children := [.definition (.scenario { Scenario.named "scenario" with steps := n.steps })] }
    n.steps.map (·.stepType) = [none, some .context, some .context] ∧
      f.violation? = some ⟨"a.feature", 0, .noType "But" "a door"⟩ := by
  intro n f
  obtain ⟨-, -, hmisses, hreaches, -⟩ := conjunctions_resolve (scenario (.named "scenario")) rfl
    [.but "a door", .plain .context "a room", .plain .conjunction "a key"]
  have hviolation := (hmisses "a.feature" ⟨"a.feature", 0, .noType "But" "a door"⟩).2
    ⟨_, rfl, rfl, rfl⟩
  have hreached : f.Reaches n :=
    @Feature.Reaches.child f [] [] (.scenario { Scenario.named "scenario" with steps := n.steps })
      (by decide) rfl (by simp)
  exact ⟨by decide, hreaches f hreached _ hviolation.1⟩

end StepNode

end Rehearsal
