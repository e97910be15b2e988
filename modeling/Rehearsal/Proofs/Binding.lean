import Rehearsal.Proofs.Matching

/-!
# Bindings

A match remembers its definition by its place. Registering a definition leaves all places as they
are (`Registry.prefix_use`), so as long as the registry is not cleared, a match calls the
implementation that was found for it. After a clearing the places are given out again: a match
calls nothing only as long as its place is still free (`Registry.call_bound`).
-/

namespace Rehearsal

theorem Registration.implementation_of_definition? {types : ParameterTypes} {x : Registration W}
    {d : StepDefinition W} (h : x.definition? types = some d) :
    d.implementation = x.implementation := by
  rw [definition?] at h
  split at h
  · cases h
    rfl
  · cases h

namespace Registry

/-- What may be done with a registry. -/
inductive Use (W : Type) where
  | type (t : ParameterType)
  | definition (x : Registration W)
  | clear
  | find (step : Step)
  | call (m : StepMatch) (step : Step)

/-- The registry after a use. What is refused leaves it as it is, and so does looking a step up or
calling an implementation. -/
def use (r : Registry W) : Use W → Registry W
  | .type t =>
    match r.registerType t with
    | .ok r => r
    | .error _ => r
  | .definition x => r.enrol x
  | .clear => r.clear
  | .find _ => r
  | .call _ _ => r

def after (r : Registry W) (us : List (Use W)) : Registry W := us.foldl use r

variable {r : Registry W} {us vs : List (Use W)}

theorem after_cons (r : Registry W) (u : Use W) (us : List (Use W)) :
    r.after (u :: us) = (r.use u).after us := rfl

theorem after_append (r : Registry W) (us vs : List (Use W)) :
    r.after (us ++ vs) = (r.after us).after vs :=
  List.foldl_append

/-- Unless the registry is cleared, its definitions stay, and where they are. -/
theorem prefix_use {u : Use W} (h : u ≠ .clear) : r.definitions <+: (r.use u).definitions := by
  cases u with
  | type t =>
    rw [use, registerType]
    cases r.types.register? t <;> exact List.prefix_rfl
  | definition x =>
    rw [use, enrol_eq]
    exact List.prefix_append _ _
  | clear => exact absurd rfl h
  | find step => exact List.prefix_rfl
  | call m step => exact List.prefix_rfl

/-- A definition that is in a registry after a use was in it before, or was just registered. -/
theorem mem_use {u : Use W} {d : StepDefinition W} (h : d ∈ (r.use u).definitions) :
    d ∈ r.definitions ∨ ∃ x, u = .definition x ∧ d.implementation = x.implementation := by
  cases u with
  | type t =>
    rw [use, registerType] at h
    cases hregister : r.types.register? t <;> rw [hregister] at h <;> exact .inl h
  | definition x =>
    rw [use, enrol_eq] at h
    rcases List.mem_append.1 h with h | h
    · exact .inl h
    · exact .inr ⟨x, rfl, Registration.implementation_of_definition? (Option.mem_toList.1 h)⟩
  | clear => cases h
  | find step => exact .inl h
  | call m step => exact .inl h

theorem prefix_after (h : ∀ u ∈ us, u ≠ .clear) : r.definitions <+: (r.after us).definitions := by
  induction us generalizing r with
  | nil => exact List.prefix_rfl
  | cons u rest ih =>
    obtain ⟨hu, hrest⟩ := List.forall_mem_cons.1 h
    exact (prefix_use hu).trans (ih hrest)

/-- A definition stays in its place until the registry is cleared. -/
theorem getElem?_after {d : StepDefinition W} {place : Nat} (hd : r.definitions[place]? = some d)
    (h : ∀ u ∈ us, u ≠ .clear) : (r.after us).definitions[place]? = some d := by
  obtain ⟨more, hmore⟩ := prefix_after (r := r) h
  rw [← hmore, List.getElem?_append_left (List.getElem?_eq_some_iff.1 hd).1, hd]

/-- A definition is in a registry from the beginning, or it was registered since. -/
theorem mem_after {d : StepDefinition W} (h : d ∈ (r.after us).definitions) :
    d ∈ r.definitions ∨ ∃ x, .definition x ∈ us ∧ d.implementation = x.implementation := by
  induction us generalizing r with
  | nil => exact .inl h
  | cons u rest ih =>
    rcases ih h with hmem | ⟨x, hx, himplementation⟩
    · rcases mem_use hmem with hmem | ⟨x, rfl, himplementation⟩
      · exact .inl hmem
      · exact .inr ⟨x, List.mem_cons_self, himplementation⟩
    · exact .inr ⟨x, List.mem_cons_of_mem u hx, himplementation⟩

/-- What was done up to the last clearing, and since. -/
theorem exists_last_clear (h : .clear ∈ us) :
    ∃ before since, us = before ++ .clear :: since ∧ .clear ∉ since := by
  obtain ⟨xs, ys, hxs, hnone⟩ := List.eq_append_cons_of_mem (List.mem_reverse.2 h)
  refine ⟨ys.reverse, xs.reverse, ?_, fun hmem => hnone (List.mem_reverse.1 hmem)⟩
  rw [← List.reverse_reverse us, hxs, List.reverse_append, List.reverse_cons, List.append_assoc,
    List.singleton_append]

/-- After a clearing, all definitions were registered since the last one. -/
theorem exists_of_clear_mem {d : StepDefinition W} (hclear : .clear ∈ us)
    (h : d ∈ (r.after us).definitions) :
    ∃ before since x, us = before ++ .clear :: since ∧ .clear ∉ since ∧ .definition x ∈ since ∧
      d.implementation = x.implementation := by
  obtain ⟨before, since, rfl, hnone⟩ := exists_last_clear hclear
  rw [after_append, after_cons] at h
  rcases mem_after h with hmem | ⟨x, hx, himplementation⟩
  · cases hmem
  · exact ⟨before, since, x, rfl, hnone, hx, himplementation⟩

/-- What it means for a registry that a step was resolved to a match. -/
theorem exists_of_find {step : Step} {m : StepMatch} (h : r.find step = .ok (some m)) :
    ∃ d, r.definitions.filter (fits step) = [d] ∧ r.definitions[m.place]? = some d ∧
      d.pattern.extract? step.text = some (.ok m.arguments) := by
  match hds : r.definitions.filter (fits step) with
  | [] =>
    rw [find_of_none hds] at h
    cases h
  | [d] =>
    obtain ⟨-, -, outcome, place, -, hextract, -, hplace, hfind⟩ := binds_of_single hds
    rw [hfind] at h
    cases outcome <;> cases h
    exact ⟨d, rfl, hplace, hextract⟩
  | d :: d' :: rest =>
    rw [find_of_many (by simp [hds])] at h
    cases h

theorem call_of_getElem? {m : StepMatch} {d : StepDefinition W}
    (h : r.definitions[m.place]? = some d) (step : Step) :
    r.call m step = d.implementation ⟨step, m.arguments⟩ := by
  rw [call, h]

theorem call_of_length_le {m : StepMatch} (h : r.definitions.length ≤ m.place) (step : Step) :
    r.call m step = .done (.error (noLongerRegistered m) false) := by
  rw [call, List.getElem?_eq_none h]

theorem call_of_find_single {x : Registration W} {step : Step} {m : StepMatch}
    (h : (empty.after [.definition x]).find step = .ok (some m)) (s : Step) :
    (empty.after [.definition x]).call m s = x.implementation ⟨s, m.arguments⟩ := by
  obtain ⟨d, -, hplace, -⟩ := exists_of_find h
  rcases mem_after (List.mem_of_getElem? hplace) with hd | ⟨y, hy, himplementation⟩
  · cases hd
  · cases List.mem_singleton.1 hy
    rw [call_of_getElem? hplace, himplementation]

/-- A match calls the implementation whose pattern has matched, with the arguments taken from the
text then, whatever is registered after it was found. Once the registry was cleared it calls
nothing and says so, unless so many definitions were registered since that one of them has its
place; then the implementation of that one is called. -/
theorem call_bound {step : Step} {m : StepMatch} (hfind : (r.after us).find step = .ok (some m))
    (vs : List (Use W)) :
    let later := r.after (us ++ .find step :: vs)
    ∃ d, (r.after us).definitions.filter (fits step) = [d] ∧
      d.pattern.extract? step.text = some (.ok m.arguments) ∧
      (.clear ∉ vs → ∀ s, later.call m s = d.implementation ⟨s, m.arguments⟩) ∧
      (.clear ∈ vs → later.definitions.length ≤ m.place →
        ∀ s, later.call m s = .done (.error (noLongerRegistered m) false)) ∧
      (.clear ∈ vs → m.place < later.definitions.length →
        ∃ before since x, vs = before ++ .clear :: since ∧ .clear ∉ since ∧
          .definition x ∈ since ∧ ∀ s, later.call m s = x.implementation ⟨s, m.arguments⟩) := by
  intro later
  have hlater : later = (r.after us).after vs := after_append r us (.find step :: vs)
  obtain ⟨d, hfitting, hplace, hextract⟩ := exists_of_find hfind
  refine ⟨d, hfitting, hextract, fun hclear s => ?_, fun _ hfree => call_of_length_le hfree,
    fun hclear htaken => ?_⟩
  · rw [hlater]
    exact call_of_getElem? (getElem?_after hplace fun u hu heq => hclear (heq ▸ hu)) s
  · -- whatever has the place now was registered since the last clearing, which dropped all others
    obtain ⟨d', htaker⟩ : ∃ d', later.definitions[m.place]? = some d' :=
      ⟨_, List.getElem?_eq_getElem htaken⟩
    have hmem := List.mem_of_getElem? htaker
    rw [hlater] at hmem
    obtain ⟨before, since, x, hvs, hnone, hx, himplementation⟩ := exists_of_clear_mem hclear hmem
    refine ⟨before, since, x, hvs, hnone, hx, fun s => ?_⟩
    rw [call_of_getElem? htaker, himplementation]

/-- A step that is found because its text was registered. -/
theorem exists_find_of_plain (x : Registration W) (hregex : x.asRegex = false)
    (hok : (StepPattern.compile .builtIn x.pattern).isOk = true)
    (hcaret : x.pattern.toList.head? ≠ some '^')
    (hbraces : ∀ c ∈ x.pattern.toList, PatternPiece.isBrace c = false) (step : Step)
    (hstep : x.patternClass.accepts step.stepType = true) (htext : step.text = x.pattern) :
    ∃ m, (empty.after [.definition x]).find step = .ok (some m) ∧ m.pattern = x.pattern ∧
      m.place = 0 := by
  obtain ⟨d, hd, hcandidate, -, hextract, hfits⟩ := x.exists_of_plain hregex hok hcaret hbraces
  have hdefinitions : (empty.after [.definition x]).definitions = [d] := by
    change (empty.enrol x).definitions = [d]
    rw [enrol_eq, empty, hd]
    rfl
  have hfitting : (empty.after [.definition x]).definitions.filter (fits step) = [d] := by
    rw [hdefinitions, List.filter_cons_of_pos ((hfits step).2 ⟨hstep, htext⟩), List.filter_nil]
  obtain ⟨-, -, outcome, place, -, houtcome, -, hplace, hfind⟩ := binds_of_single hfitting
  obtain rfl : outcome = .ok [] := Option.some.inj (houtcome.symm.trans (htext ▸ hextract))
  have hlt := (List.getElem?_eq_some_iff.1 hplace).1
  rw [hdefinitions, List.length_singleton] at hlt
  exact ⟨_, hfind, congrArg Candidate.pattern hcandidate, Nat.lt_one_iff.1 hlt⟩

/-- A match calls its implementation also after another registration, and nothing after a
clearing. -/
theorem call_bound_door :
    let x : Registration Unit := ⟨.context, "a door", false, ⟨"impl", 0⟩, fun _ => .done .ok⟩
    let step := Step.ofClass .context "a door"
    ∃ m, (empty.after [.definition x]).find step = .ok (some m) ∧
      (empty.after [.definition x, .find step, .definition x]).call m step = .done .ok ∧
      (empty.after [.definition x, .find step, .clear]).call m step =
        .done (.error (noLongerRegistered m) false) := by
  intro x step
  obtain ⟨m, hfind, -, hplace⟩ := exists_find_of_plain x rfl (by decide +kernel) (by decide)
    (by simp [x, PatternPiece.isBrace]) step rfl rfl
  refine ⟨m, hfind, ?_, ?_⟩
  · obtain ⟨d, hfitting, -, hcall, -⟩ := call_bound hfind [.definition x]
    have hd := List.mem_of_mem_filter (hfitting ▸ List.mem_singleton_self d)
    rcases mem_after hd with hd | ⟨y, hy, himplementation⟩
    · cases hd
    · cases List.mem_singleton.1 hy
      have hlater := hcall (by simp) step
      rwa [himplementation] at hlater
  · obtain ⟨-, -, -, -, hcall, -⟩ := call_bound hfind [.clear]
    exact hcall (by simp) (Nat.zero_le m.place) step

/-- A match whose definition was dropped calls an implementation that was registered for another
text since. -/
theorem cleared_place_is_taken :
    let x : Registration Unit :=
      ⟨.context, "a door", false, ⟨"impl", 0⟩, fun _ => .done (.error "closed" false)⟩
    let y : Registration Unit := ⟨.context, "a step", false, ⟨"impl", 0⟩, fun _ => .done .ok⟩
    let step := Step.ofClass .context "a door"
    ∃ m, (empty.after [.definition x]).find step = .ok (some m) ∧
      let later := empty.after [.definition x, .find step, .clear, .definition y]
      later.call m step = y.implementation ⟨step, m.arguments⟩ ∧
      later.call m step ≠ x.implementation ⟨step, m.arguments⟩ ∧
      later.call m step ≠ .done (.error (noLongerRegistered m) false) := by
  intro x y step
  obtain ⟨m, hfind, -, hplace⟩ := exists_find_of_plain x rfl (by decide +kernel) (by decide)
    (by simp [x, PatternPiece.isBrace]) step rfl rfl
  have hok : (StepPattern.compile .builtIn y.pattern).isOk = true := by decide +kernel
  obtain ⟨d, hd, -, himplementation, -⟩ := y.exists_of_plain rfl hok (by decide)
    (by simp [y, PatternPiece.isBrace])
  refine ⟨m, hfind, ?_⟩
  intro later
  have hlater : later.definitions = [d] := by
    change (((empty.enrol x).clear).enrol y).definitions = [d]
    rw [enrol_eq, enrol_eq, clear]
    change [] ++ (y.definition? .builtIn).toList = [d]
    rw [hd]
    rfl
  have hcall : later.call m step = .done .ok := by
    rw [call_of_getElem? (d := d) (by rw [hlater, hplace]; rfl), himplementation]
  rw [hcall]
  exact ⟨rfl, nofun, nofun⟩

end Registry

end Rehearsal
