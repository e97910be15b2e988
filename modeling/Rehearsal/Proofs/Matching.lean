import Mathlib.Data.List.Perm.Basic
import Rehearsal.Proofs.Pattern
import Rehearsal.Registry

/-!
# Matching

Which definitions fit a step says all about how the step is resolved: the order in which they were
registered only shows in the order of the candidates of an ambiguous step, and the definitions that
do not fit do not show at all (`Registry.find_resolves`).

Arguments are converted only after a single definition has been found. `Gathers` says what comes of
the conversions: all arguments, or the first fault in the order of the pattern.
-/

namespace Rehearsal

/-- The results, one after the other, up to the first fault. -/
inductive Gathers {ε α : Type} : List (Except ε α) → Except ε (List α) → Prop
  | all (as : List α) : Gathers (as.map .ok) (.ok as)
  | fault (as : List α) (e : ε) (rest : List (Except ε α)) :
      Gathers (as.map .ok ++ .error e :: rest) (.error e)

theorem Gathers.cons {ε α : Type} {xs : List (Except ε α)} {y : Except ε (List α)}
    (h : Gathers xs y) (a : α) : Gathers (.ok a :: xs) (y.map (a :: ·)) := by
  cases h with
  | all as => exact .all (a :: as)
  | fault as e rest => exact .fault (a :: as) e rest

namespace StepPattern

/-- What the parameter with the index takes from a text, if its group took part in the match. -/
def reading? (text : List Char) (walk : Regex.Walk) (p : Parameter) (index : Nat) :
    Option (Except ConversionError Argument) :=
  (p.group.bind walk.span?).map fun (i, j) =>
    let raw := String.ofList (Text.slice text i j)
    let argument (v : Value) : Argument :=
      ⟨p.name, v, raw, Text.byteOffset text i, Text.byteOffset text j⟩
    match p.type with
    | none => .ok (argument (.text raw))
    | some type =>
      match type.convert raw with
      | .ok v => .ok (argument v)
      | .error detail => .error ⟨p.name.getD (toString index), raw, type.name, detail⟩

/-- What parameters take from a text, in their order. -/
def readings (text : List Char) (walk : Regex.Walk) (index : Nat) (ps : List Parameter) :
    List (Except ConversionError Argument) :=
  (ps.zipIdx index).filterMap fun x => reading? text walk x.1 x.2

theorem gathers_argumentsOf (text : List Char) (walk : Regex.Walk) (index : Nat)
    (ps : List Parameter) :
    Gathers (readings text walk index ps) (argumentsOf text walk index ps) := by
  induction ps generalizing index with
  | nil => exact .all []
  | cons p rest ih =>
    rw [readings, List.zipIdx_cons, List.filterMap_cons, argumentsOf, reading?]
    cases hspan : p.group.bind walk.span? with
    | none => exact ih (index + 1)
    | some span =>
      obtain ⟨i, j⟩ := span
      simp only [Option.map_some]
      cases p.type with
      | none => exact (ih (index + 1)).cons _
      | some type =>
        cases hconvert : type.convert (String.ofList (Text.slice text i j)) with
        | ok v =>
          simp only [hconvert]
          exact (ih (index + 1)).cons _
        | error detail =>
          simp only [hconvert]
          exact .fault [] _ _

end StepPattern

/-- The definition as a candidate for an ambiguous step. -/
def StepDefinition.candidate (d : StepDefinition W) : Candidate := ⟨d.pattern.source, d.location⟩

/-- What is handed over to register a definition. -/
structure Registration (W : Type) where
  patternClass : PatternClass
  pattern : String
  asRegex : Bool
  location : CodeLocation
  implementation : StepCall → Script W Outcome

/-- The definition that is registered, if the pattern is accepted. -/
def Registration.definition? (types : ParameterTypes) (x : Registration W) :
    Option (StepDefinition W) :=
  match if x.asRegex then StepPattern.ofRegex x.pattern
    else StepPattern.compile types x.pattern with
  | .ok p => some ⟨x.patternClass, p, x.location, x.implementation⟩
  | .error _ => none

namespace Registry

/-- Registers a definition; a refused one leaves the registry as it is. -/
def enrol (r : Registry W) (x : Registration W) : Registry W :=
  match r.register x.patternClass x.pattern x.asRegex x.location x.implementation with
  | .ok r => r
  | .error _ => r

theorem enrol_eq (r : Registry W) (x : Registration W) :
    r.enrol x = { r with definitions := r.definitions ++ (x.definition? r.types).toList } := by
  rw [enrol, register, Registration.definition?]
  cases if x.asRegex then StepPattern.ofRegex x.pattern
    else StepPattern.compile r.types x.pattern with
  | ok p => rfl
  | error e => simp

theorem definitions_foldl_enrol (r : Registry W) (xs : List (Registration W)) :
    (xs.foldl enrol r).definitions =
      r.definitions ++ xs.filterMap (·.definition? r.types) := by
  induction xs generalizing r with
  | nil => simp
  | cons x rest ih =>
    rw [List.foldl_cons, ih, enrol_eq]
    cases hx : x.definition? r.types <;> simp [hx]

variable {r r' : Registry W} {step : Step}

theorem map_snd_fitting (step : Step) (place : Nat) (ds : List (StepDefinition W)) :
    (fitting step place ds).map Prod.snd = ds.filter (fits step) := by
  induction ds generalizing place with
  | nil => rfl
  | cons d rest ih =>
    rw [fitting]
    cases hfits : fits step d <;> simp [hfits, ih]

/-- A definition that fits stands at its place. -/
theorem getElem?_of_mem_fitting {place : Nat} {ds : List (StepDefinition W)}
    {x : Nat × StepDefinition W} (h : x ∈ fitting step place ds) :
    ∃ k, x.1 = place + k ∧ ds[k]? = some x.2 := by
  induction ds generalizing place with
  | nil => cases h
  | cons d rest ih =>
    have hrest : x ∈ fitting step (place + 1) rest → ∃ k, x.1 = place + k ∧
        (d :: rest)[k]? = some x.2 := by
      intro hx
      obtain ⟨k, hk, hd⟩ := ih hx
      exact ⟨k + 1, by omega, hd⟩
    rw [fitting] at h
    split at h
    · rcases List.mem_cons.1 h with rfl | h
      · exact ⟨0, rfl, rfl⟩
      · exact hrest h
    · exact hrest h

theorem find_of_none (h : r.definitions.filter (fits step) = []) : r.find step = .ok none := by
  rw [← map_snd_fitting step 0, List.map_eq_nil_iff] at h
  rw [find, h]

theorem find_of_many (h : 2 ≤ (r.definitions.filter (fits step)).length) :
    r.find step = .error (.ambiguous step.text
      ((r.definitions.filter (fits step)).map (·.candidate))) := by
  rw [← map_snd_fitting step 0] at h ⊢
  rw [find]
  split
  · rename_i hnil
    rw [hnil] at h
    cases h
  · rename_i hone
    rw [hone] at h
    exact absurd h (by simp)
  · rw [List.map_map]
    rfl

/-- The step is resolved to the definition. Its pattern matches, so arguments are taken from the
text; the first one that cannot be converted decides, if there is any. -/
def Binds (r : Registry W) (step : Step) (d : StepDefinition W) : Prop :=
  ∃ start walk outcome place,
    d.pattern.regex.root.search step.text.toList.toArray = some (start, walk) ∧
    d.pattern.extract? step.text = some outcome ∧
    Gathers (StepPattern.readings step.text.toList walk 0 d.pattern.parameters) outcome ∧
    r.definitions[place]? = some d ∧
    r.find step =
      match outcome with
      | .ok arguments => .ok (some ⟨d.pattern.source, d.location, arguments, place⟩)
      | .error e => .error (.conversion e)

theorem binds_of_single {d : StepDefinition W} (h : r.definitions.filter (fits step) = [d]) :
    r.Binds step d := by
  have hd : fits step d = true := (List.mem_filter.1 (h ▸ List.mem_singleton_self d)).2
  rw [fits, Bool.and_eq_true, StepPattern.accepts_eq_isSome_extract?,
    Option.isSome_iff_exists] at hd
  obtain ⟨-, outcome, houtcome⟩ := hd
  obtain ⟨⟨start, walk⟩, hsearch, hargs⟩ := Option.map_eq_some_iff.1 houtcome
  rw [← map_snd_fitting step 0] at h
  obtain ⟨⟨place, _⟩, hfitting, rfl⟩ := List.map_eq_singleton_iff.1 h
  obtain ⟨k, hk, hplace⟩ := getElem?_of_mem_fitting (hfitting ▸ List.mem_singleton_self _)
  obtain rfl : place = k := by omega
  refine ⟨start, walk, outcome, place, hsearch, houtcome, hargs ▸ ?_, hplace, ?_⟩
  · exact StepPattern.gathers_argumentsOf _ walk 0 _
  · rw [find, hfitting]
    simp only [houtcome]
    cases outcome <;> rfl

theorem find_eq_none_iff : r.find step = .ok none ↔ r.definitions.filter (fits step) = [] := by
  refine ⟨fun h => ?_, find_of_none⟩
  match hds : r.definitions.filter (fits step) with
  | [] => rfl
  | [d] =>
    obtain ⟨-, -, outcome, place, -, -, -, -, hfind⟩ := binds_of_single hds
    rw [h] at hfind
    cases outcome <;> cases hfind
  | d :: d' :: rest =>
    rw [find_of_many (by simp [hds])] at h
    cases h

/-- The two registries resolve the step alike. The candidates of an ambiguous step may be listed
in different orders, and the one definition of a match may stand at different places. -/
inductive Alike (step : Step) (r r' : Registry W) : Prop
  | unknown (h : r.find step = .ok none) (h' : r'.find step = .ok none)
  | bound {d : StepDefinition W} {arguments : List Argument} {place place' : Nat}
      (hd : r.definitions[place]? = some d) (hd' : r'.definitions[place']? = some d)
      (h : r.find step = .ok (some ⟨d.pattern.source, d.location, arguments, place⟩))
      (h' : r'.find step = .ok (some ⟨d.pattern.source, d.location, arguments, place'⟩))
  | unconvertible {e : ConversionError} (h : r.find step = .error (.conversion e))
      (h' : r'.find step = .error (.conversion e))
  | ambiguous {cs cs' : List Candidate} (hperm : cs.Perm cs')
      (h : r.find step = .error (.ambiguous step.text cs))
      (h' : r'.find step = .error (.ambiguous step.text cs'))

theorem Binds.alike {d : StepDefinition W} (h : r.Binds step d) (h' : r'.Binds step d) :
    Alike step r r' := by
  obtain ⟨-, -, outcome, place, -, houtcome, -, hplace, hfind⟩ := h
  obtain ⟨-, -, outcome', place', -, houtcome', -, hplace', hfind'⟩ := h'
  obtain rfl := Option.some.inj (houtcome.symm.trans houtcome')
  cases outcome with
  | ok arguments => exact .bound hplace hplace' hfind hfind'
  | error e => exact .unconvertible hfind hfind'

/-- Only the definitions that fit count, and not their order. -/
theorem alike_of_perm
    (h : (r.definitions.filter (fits step)).Perm (r'.definitions.filter (fits step))) :
    Alike step r r' := by
  generalize hds : r.definitions.filter (fits step) = ds at h
  match ds, hds with
  | [], hds => exact .unknown (find_of_none hds) (find_of_none h.symm.eq_nil)
  | [d], hds =>
    exact (binds_of_single hds).alike (binds_of_single (List.singleton_perm.1 h).symm)
  | d :: d' :: rest, hds =>
    have hmany : 2 ≤ (r.definitions.filter (fits step)).length := by simp [hds]
    have hmany' : 2 ≤ (r'.definitions.filter (fits step)).length := by simp [← h.length_eq]
    refine .ambiguous ?_ (find_of_many hmany) (find_of_many hmany')
    rw [hds]
    exact h.map _

/-- A step is resolved by the set of the definitions that fit it. If none fits, there is no match;
if one fits, the step is bound to it, unless one of its arguments cannot be converted; and if
several fit, all are listed, whatever becomes of their arguments. So neither the order of the
registrations nor definitions that do not fit matter. -/
theorem find_resolves (r : Registry W) (step : Step) :
    (r.find step = .ok none ↔ r.definitions.filter (fits step) = []) ∧
    (∀ d, r.definitions.filter (fits step) = [d] → r.Binds step d) ∧
    (2 ≤ (r.definitions.filter (fits step)).length →
      r.find step = .error (.ambiguous step.text
        ((r.definitions.filter (fits step)).map (·.candidate)))) ∧
    (∀ (r' : Registry W) (more : List (StepDefinition W)),
      r'.definitions.Perm (r.definitions ++ more) → (∀ d ∈ more, fits step d = false) →
        Alike step r r') ∧
    ∀ xs ys : List (Registration W), xs.Perm ys →
      Alike step (xs.foldl enrol r) (ys.foldl enrol r) := by
  refine ⟨find_eq_none_iff, fun d => binds_of_single, find_of_many, ?_, ?_⟩
  · intro r' more hperm hmore
    refine alike_of_perm ?_
    have hnone : more.filter (fits step) = [] := by simpa using hmore
    have hfilter := hperm.filter (fits step)
    rw [List.filter_append, hnone, List.append_nil] at hfilter
    exact hfilter.symm
  · intro xs ys hperm
    refine alike_of_perm ?_
    rw [definitions_foldl_enrol, definitions_foldl_enrol]
    exact ((hperm.filterMap _).append_left _).filter _

end Registry

/-- A registration of plain text gives a definition that fits this text alone. -/
theorem Registration.exists_of_plain {types : ParameterTypes} (x : Registration W)
    (hregex : x.asRegex = false) (hok : (StepPattern.compile types x.pattern).isOk = true)
    (hcaret : x.pattern.toList.head? ≠ some '^')
    (hbraces : ∀ c ∈ x.pattern.toList, PatternPiece.isBrace c = false) :
    ∃ d : StepDefinition W, x.definition? types = some d ∧ d.candidate = ⟨x.pattern, x.location⟩ ∧
      d.implementation = x.implementation ∧ d.pattern.extract? x.pattern = some (.ok []) ∧
      ∀ step, Registry.fits step d = true ↔
        x.patternClass.accepts step.stepType = true ∧ step.text = x.pattern := by
  obtain ⟨p, hcompile, hsource, haccepts, hextract⟩ :=
    StepPattern.exists_of_plain hok hcaret hbraces
  refine ⟨⟨x.patternClass, p, x.location, x.implementation⟩, ?_, ?_, rfl, hextract, fun step => ?_⟩
  · rw [definition?, hregex, if_neg Bool.false_ne_true, hcompile]
  · rw [StepDefinition.candidate, hsource]
  · rw [Registry.fits, Bool.and_eq_true, haccepts]

namespace Registry

/-- A step that two definitions fit is ambiguous, in whichever order they were registered. -/
theorem find_resolves_ambiguous :
    let x : Registration Unit := ⟨.any, "a door", false, ⟨"impl", 1⟩, fun _ => .done .ok⟩
    let y : Registration Unit := ⟨.context, "a door", false, ⟨"impl", 2⟩, fun _ => .done .ok⟩
    let r := [x, y].foldl enrol .empty
    let step := Step.ofClass .context "a door"
    r.find step = .error (.ambiguous "a door"
      [⟨"a door", ⟨"impl", 1⟩⟩, ⟨"a door", ⟨"impl", 2⟩⟩]) ∧
      Alike step r ([y, x].foldl enrol .empty) := by
  intro x y r step
  have hok : (StepPattern.compile .builtIn "a door").isOk = true := by decide +kernel
  have hbraces : ∀ c ∈ "a door".toList, PatternPiece.isBrace c = false := by
    simp [PatternPiece.isBrace]
  obtain ⟨d, hd, hcandidate, -, -, hfits⟩ := x.exists_of_plain rfl hok (by decide) hbraces
  obtain ⟨d', hd', hcandidate', -, -, hfits'⟩ := y.exists_of_plain rfl hok (by decide) hbraces
  have hfitting : r.definitions.filter (fits step) = [d, d'] := by
    rw [definitions_foldl_enrol, empty, List.nil_append, List.filterMap_cons_some hd,
      List.filterMap_cons_some hd', List.filter_cons_of_pos ((hfits step).2 ⟨rfl, rfl⟩),
      List.filter_cons_of_pos ((hfits' step).2 ⟨rfl, rfl⟩)]
    rfl
  obtain ⟨-, -, hmany, -⟩ := r.find_resolves step
  obtain ⟨-, -, -, -, hperm⟩ := (empty : Registry Unit).find_resolves step
  rw [hmany (by simp [hfitting]), hfitting, List.map_cons, hcandidate, List.map_singleton,
    hcandidate']
  exact ⟨rfl, hperm _ _ (.swap y x [])⟩

end Registry

end Rehearsal
