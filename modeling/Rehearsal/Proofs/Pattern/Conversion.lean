import Rehearsal.Proofs.Numeral
import Rehearsal.Proofs.Pattern.Scanning
import Rehearsal.Proofs.Pattern.Size

/-!
# Converting what placeholders match

A placeholder for numbers matches digits of every script and of any length, but only ASCII text is
read as a number, and only integers of 64 bits are values. `ParameterType.Converts` says what the
text of a placeholder becomes and `ParameterType.Resists` which texts become nothing; one of the two
is true of everything that a placeholder matches (`converts_or_resists`). For doubles no text of
ASCII characters is left over (`Number.exists_readDouble_iff`). Through the placeholders of a
pattern the first text that resists is the one that is blamed (`placeholders_convert`).
-/

namespace Rehearsal

def IsAscii (w : List Char) : Prop := ∀ c ∈ w, c.toNat < 128

theorem isAscii_append_iff {u v : List Char} : IsAscii (u ++ v) ↔ IsAscii u ∧ IsAscii v := by
  simp only [IsAscii, List.forall_mem_append]

theorem isAscii_cons_iff {c : Char} {w : List Char} :
    IsAscii (c :: w) ↔ c.toNat < 128 ∧ IsAscii w :=
  List.forall_mem_cons

theorem lt_of_isDigit {c : Char} (h : c.isDigit = true) : c.toNat < 128 := by
  simp only [Char.isDigit, Bool.and_eq_true, decide_eq_true_eq, UInt32.le_iff_toNat_le] at h
  exact Nat.lt_of_le_of_lt h.2 (by decide)

theorem isAscii_of_isDigit {w : List Char} (h : ∀ c ∈ w, c.isDigit = true) : IsAscii w :=
  fun c hc => lt_of_isDigit (h c hc)

theorem isDecimalDigit_of_isDigit {c : Char} (h : c.isDigit = true) :
    Text.isDecimalDigit c = true := by
  rw [Text.isDecimalDigit, if_pos (lt_of_isDigit h), h]

/-- Decimal digits that are ASCII characters are the digits of ASCII. -/
theorem isDigit_of_isAscii {w : List Char} (h : ∀ c ∈ w, Text.isDecimalDigit c = true)
    (hascii : IsAscii w) : ∀ c ∈ w, c.isDigit = true := fun c hc => by
  simpa [Text.isDecimalDigit, hascii c hc] using h c hc

namespace Number

variable {cs w : List Char}

/-! ### Doubles -/

theorem isAscii_takeWhile_isDigit (cs : List Char) : IsAscii (cs.takeWhile Char.isDigit) :=
  isAscii_of_isDigit fun _ hc => List.mem_takeWhile_imp hc

theorem isAscii_of_readExponent {x : Int} (h : readExponent cs = some x) : IsAscii cs := by
  cases cs with
  | nil => simp [IsAscii]
  | cons c cs =>
    rw [readExponent.eq_def] at h
    dsimp only at h
    by_cases hc : (c = 'e' || c = 'E') = true
    · rw [if_pos hc] at h
      have hc' : c.toNat < 128 := by
        simp only [Bool.or_eq_true, decide_eq_true_eq] at hc
        rcases hc with rfl | rfl <;> decide
      have hdigits : ∀ {ds : List Char} {x y : Int},
          (if (ds.isEmpty || !ds.all Char.isDigit) = true then none else some y) = some x →
            IsAscii ds := fun h => by
        split_ifs at h with hds
        simp only [Bool.or_eq_true, Bool.not_eq_true', not_or, Bool.not_eq_false,
          List.all_eq_true] at hds
        exact isAscii_of_isDigit hds.2
      refine isAscii_cons_iff.2 ⟨hc', ?_⟩
      split at h
      · exact isAscii_cons_iff.2 ⟨by decide, hdigits h⟩
      · exact isAscii_cons_iff.2 ⟨by decide, hdigits h⟩
      · exact hdigits h
    · rw [if_neg hc] at h
      cases h

theorem isAscii_of_readUnsigned {x : Float} (h : readUnsigned cs = some x) : IsAscii cs := by
  rw [← List.takeWhile_append_dropWhile (p := Char.isDigit) (l := cs)]
  refine isAscii_append_iff.2 ⟨isAscii_takeWhile_isDigit cs, ?_⟩
  rw [readUnsigned] at h
  dsimp only at h
  split at h
  · rename_i more hrest
    rw [hrest, isAscii_cons_iff,
      ← List.takeWhile_append_dropWhile (p := Char.isDigit) (l := more), isAscii_append_iff]
    split_ifs at h
    obtain ⟨e, he, -⟩ := Option.map_eq_some_iff.1 h
    exact ⟨by decide, isAscii_takeWhile_isDigit more, isAscii_of_readExponent he⟩
  · split_ifs at h
    obtain ⟨e, he, -⟩ := Option.map_eq_some_iff.1 h
    exact isAscii_of_readExponent he

theorem isAscii_of_map_toLower (h : IsAscii (cs.map Char.toLower)) : IsAscii cs := by
  intro c hc
  have hlower := h _ (List.mem_map_of_mem hc)
  unfold Char.toLower at hlower
  split at hlower
  · rename_i hupper
    have hle : c.toNat ≤ 90 := UInt32.le_iff_toNat_le.1 hupper.2
    omega
  · exact hlower

theorem isAscii_of_readMagnitude {x : Float} (h : readMagnitude cs = some x) : IsAscii cs := by
  have hword : ∀ {s : String}, IsAscii s.toList → String.ofList (cs.map Char.toLower) = s →
      IsAscii cs := by
    rintro s hs rfl
    exact isAscii_of_map_toLower (by simpa using hs)
  rw [readMagnitude] at h
  split_ifs at h with hinf hnan
  · simp only [Bool.or_eq_true, decide_eq_true_eq] at hinf
    rcases hinf with hinf | hinf
    · exact hword (by simp [IsAscii]) hinf
    · exact hword (by simp [IsAscii]) hinf
  · exact hword (by simp [IsAscii]) hnan
  · exact isAscii_of_readUnsigned h

/-- Only ASCII characters are read as a double. -/
theorem isAscii_of_readDouble {x : Float} (h : readDouble cs = .ok x) : IsAscii cs := by
  have hminus : '-'.toNat < 128 := by decide
  have hplus : '+'.toNat < 128 := by decide
  rw [readDouble.eq_def] at h
  dsimp only at h
  split at h
  · cases h
  · rename_i y hresult
    split at hresult
    · obtain ⟨z, hz, -⟩ := Option.map_eq_some_iff.1 hresult
      exact isAscii_cons_iff.2 ⟨hminus, isAscii_of_readMagnitude hz⟩
    · exact isAscii_cons_iff.2 ⟨hplus, isAscii_of_readMagnitude hresult⟩
    · exact isAscii_of_readMagnitude hresult
  · cases h

/-- Digits are read up to where something else begins. -/
theorem span_isDigit {ds rest : List Char} (hds : ∀ d ∈ ds, d.isDigit = true)
    (hrest : ∀ c ∈ rest.head?, c.isDigit = false) :
    (ds ++ rest).takeWhile Char.isDigit = ds ∧ (ds ++ rest).dropWhile Char.isDigit = rest := by
  rw [List.takeWhile_append_of_pos hds, List.dropWhile_append_of_pos hds]
  cases rest with
  | nil => simp
  | cons c rest => simp [hrest c rfl]

theorem exists_readExponent (h : IsExponent w) (hascii : IsAscii w) :
    ∃ x, readExponent w = some x := by
  rcases h with rfl | ⟨e, _, rfl, he, s, d, rfl, hs, hd⟩
  · exact ⟨0, rfl⟩
  · obtain ⟨-, hascii⟩ := isAscii_cons_iff.1 hascii
    have hdigits := isDigit_of_isAscii hd.2 (isAscii_append_iff.1 hascii).2
    have hcond : (d.isEmpty || !d.all Char.isDigit) = false := by
      simpa [hd.1] using hdigits
    rw [readExponent.eq_def]
    dsimp only
    rw [if_pos (by simpa using he)]
    rcases hs with rfl | rfl | rfl
    · rw [List.nil_append]
      split
      · cases hdigits _ List.mem_cons_self
      · cases hdigits _ List.mem_cons_self
      · exact ⟨_, if_neg (by simp [hcond])⟩
    · exact ⟨_, if_neg (by simp [hcond])⟩
    · exact ⟨_, if_neg (by simp [hcond])⟩

theorem exists_readUnsigned {m e : List Char} (hm : IsMantissa m) (he : IsExponent e)
    (hascii : IsAscii (m ++ e)) : ∃ x, readUnsigned (m ++ e) = some x := by
  obtain ⟨hmascii, heascii⟩ := isAscii_append_iff.1 hascii
  obtain ⟨x, hx⟩ := exists_readExponent he heascii
  have hnext : ∀ c ∈ e.head?, c.isDigit = false ∧ c ≠ '.' := by
    rcases he with rfl | ⟨c, _, rfl, rfl | rfl, -⟩
    · simp
    · rintro _ ⟨⟩
      decide
    · rintro _ ⟨⟩
      decide
  have hdot : ∀ c ∈ ('.' :: e).head?, c.isDigit = false := by
    rintro _ ⟨⟩
    decide
  rw [readUnsigned]
  rcases hm with ⟨d, f, rfl, hd, hf⟩ | ⟨f, rfl, hf⟩ | hd
  · obtain ⟨hdascii, hfascii⟩ := isAscii_append_iff.1 hmascii
    have hd' := isDigit_of_isAscii hd.2 hdascii
    have hf' := isDigit_of_isAscii hf (isAscii_cons_iff.1 hfascii).2
    obtain ⟨htake, hdrop⟩ := @span_isDigit _ ('.' :: (f ++ e)) hd' (by rintro _ ⟨⟩; decide)
    obtain ⟨htake', hdrop'⟩ := span_isDigit hf' fun c hc => (hnext c hc).1
    simp [htake, hdrop, htake', hdrop', hx, hd.1]
  · have hf' := isDigit_of_isAscii hf.2 (isAscii_cons_iff.1 hmascii).2
    obtain ⟨htake', hdrop'⟩ := span_isDigit hf' fun c hc => (hnext c hc).1
    have hpoint : Char.isDigit '.' = false := by decide
    simp [hpoint, htake', hdrop', hx, hf.1]
  · have hd' := isDigit_of_isAscii hd.2 hmascii
    obtain ⟨htake, hdrop⟩ := span_isDigit hd' fun c hc => (hnext c hc).1
    simp only [htake, hdrop]
    cases e with
    | nil => simp [hx, hd.1]
    | cons c e => simp [(hnext c rfl).2, hx, hd.1]

/-- A mantissa begins with a digit or a point. -/
theorem ne_sign_of_isMantissa {m : List Char} (hm : IsMantissa m) :
    ∃ c rest, m = c :: rest ∧ c ≠ '-' ∧ c ≠ '+' := by
  have hdigit : ∀ {d : List Char}, IsDigits d → ∃ c rest, d = c :: rest ∧ c ≠ '-' ∧ c ≠ '+' := by
    rintro d ⟨hne, hd⟩
    obtain ⟨c, rest, rfl⟩ := List.exists_cons_of_ne_nil hne
    have hc := hd c List.mem_cons_self
    refine ⟨c, rest, rfl, ?_, ?_⟩
    · rintro rfl
      revert hc
      decide
    · rintro rfl
      revert hc
      decide
  rcases hm with ⟨d, f, rfl, hd, -⟩ | ⟨f, rfl, -⟩ | hd
  · obtain ⟨c, rest, rfl, hc⟩ := hdigit hd
    exact ⟨c, _, rfl, hc⟩
  · exact ⟨'.', f, rfl, by decide, by decide⟩
  · exact hdigit hd

/-- What the expression for doubles covers is read as a double if it is all ASCII. -/
theorem exists_readDouble_iff (h : IsFloat w) : (∃ x, readDouble w = .ok x) ↔ IsAscii w := by
  refine ⟨fun ⟨x, hx⟩ => isAscii_of_readDouble hx, fun hascii => ?_⟩
  obtain ⟨s, m, e, rfl, hs, hm, he⟩ := h
  obtain ⟨y, hy⟩ := exists_readUnsigned hm he (isAscii_append_iff.1 hascii).2
  obtain ⟨z, hz⟩ : ∃ z, readMagnitude (m ++ e) = some z := by
    rw [readMagnitude]
    split_ifs
    · exact ⟨_, rfl⟩
    · exact ⟨_, rfl⟩
    · exact ⟨y, hy⟩
  rcases hs with rfl | rfl | rfl
  · obtain ⟨c, rest, rfl, hminus, hplus⟩ := ne_sign_of_isMantissa hm
    rw [List.nil_append, List.cons_append] at *
    refine ⟨z, ?_⟩
    rw [readDouble.eq_def]
    split
    · exact absurd (List.cons.inj ‹_›).1 hminus
    · exact absurd (List.cons.inj ‹_›).1 hplus
    · simp [hz]
  · exact ⟨-z, by simp [readDouble, hz]⟩
  · exact ⟨z, by simp [readDouble, hz]⟩

theorem Denotes.isAscii {n : Int} (h : Denotes w n) : IsAscii w := by
  cases h with
  | unsigned _ hds => exact isAscii_of_isDigit hds
  | plus _ hds | minus _ hds => exact isAscii_cons_iff.2 ⟨by decide, isAscii_of_isDigit hds⟩

/-- What the expression for integers covers denotes an integer if it is all ASCII. -/
theorem exists_denotes (h : IsInt w) (hascii : IsAscii w) : ∃ n, Denotes w n := by
  obtain ⟨s, d, rfl, hs, hne, hd⟩ := h
  have hdigits := isDigit_of_isAscii hd (isAscii_append_iff.1 hascii).2
  rcases hs with rfl | rfl | rfl
  · exact ⟨_, .unsigned hne hdigits⟩
  · exact ⟨_, .minus hne hdigits⟩
  · exact ⟨_, .plus hne hdigits⟩

end Number

/-! ### What becomes of the text of a placeholder -/

namespace ParameterType

open Number

/-- The text of a placeholder is converted to the value: an integer to what it denotes, a double to
what is read, and other texts to themselves. -/
inductive Converts : Option ParameterType → List Char → Value → Prop where
  | untyped {w : List Char} : Converts none w (.text (String.ofList w))
  | int {name : String} {w : List Char} {n : Int} (h : Denotes w n) :
      Converts (some (.int name)) w (.int n)
  | float {name : String} {w : List Char} {x : Float} (h : readDouble w = .ok x) :
      Converts (some (.float name)) w (.float x)
  | word {name : String} {w : List Char} : Converts (some (.word name)) w (.text (String.ofList w))

/-- The text of a placeholder for numbers is none that can be converted: it has digits of other
scripts, or it denotes an integer of more than 64 bits. -/
inductive Resists : Option ParameterType → List Char → Prop where
  | intScript {name : String} {w : List Char} (h : ¬ IsAscii w) : Resists (some (.int name)) w
  | intRange {name : String} {w : List Char} {n : Int} (h : Denotes w n)
      (hn : IntRange.signed64.contains n = false) : Resists (some (.int name)) w
  | floatScript {name : String} {w : List Char} (h : ¬ IsAscii w) : Resists (some (.float name)) w

variable {name : String} {type : Option ParameterType} {w : List Char}

theorem not_resists_none : ¬ Resists none w := fun h => by cases h

theorem resists_int_iff : Resists (some (.int name)) w ↔
    ¬ IsAscii w ∨ ∃ n, Denotes w n ∧ IntRange.signed64.contains n = false := by
  constructor
  · intro h
    generalize htype : some (ParameterType.int name) = type at h
    cases h with
    | intScript h => exact .inl h
    | intRange h hn => exact .inr ⟨_, h, hn⟩
    | floatScript => exact absurd htype (ne_of_regex (by simp [int, float]))
  · rintro (h | ⟨n, h, hn⟩)
    · exact .intScript h
    · exact .intRange h hn

theorem resists_float_iff : Resists (some (.float name)) w ↔ ¬ IsAscii w := by
  refine ⟨fun h => ?_, .floatScript⟩
  generalize htype : some (ParameterType.float name) = type at h
  cases h with
  | floatScript h => exact h
  | intScript | intRange => exact absurd htype (ne_of_regex (by simp [int, float]))

theorem not_resists_word : ¬ Resists (some (.word name)) w := fun h => by
  generalize htype : some (ParameterType.word name) = type at h
  cases h with
  | intScript | intRange | floatScript =>
    exact absurd htype (ne_of_regex (by simp [int, float, word]))

def valueOf (type : Option ParameterType) (raw : String) : Except String Value :=
  match type with
  | none => .ok (.text raw)
  | some type => type.convert raw

/-- What a placeholder stands for is converted unless it resists. -/
theorem converts_or_resists (h : Allows type w) :
    (∃ v, valueOf type (String.ofList w) = .ok v ∧ Converts type w v ∧ ¬ Resists type w) ∨
      ∃ t detail, type = some t ∧ t.convert (String.ofList w) = .error detail ∧
        Resists type w := by
  cases h with
  | untyped => exact .inl ⟨_, rfl, .untyped, not_resists_none⟩
  | word => exact .inl ⟨_, rfl, .word, not_resists_word⟩
  | @int name w h =>
    have hread : ∀ n, readInt .signed64 w = .ok n ↔
        Denotes w n ∧ IntRange.signed64.contains n = true := fun n => by
      rw [readInt_eq_ok_iff (by decide) (by decide)]
      exact and_congr_right fun _ => and_iff_left fun _ => by decide
    cases hresult : readInt .signed64 w with
    | ok n =>
      obtain ⟨hn, hcontains⟩ := (hread n).1 hresult
      refine .inl ⟨.int n, by simp [valueOf, ParameterType.int, hresult], .int hn, fun hres => ?_⟩
      obtain hascii | ⟨m, hm, hrange⟩ := resists_int_iff.1 hres
      · exact hascii hn.isAscii
      · rw [hn.unique hm, hrange] at hcontains
        cases hcontains
    | error fault =>
      refine .inr ⟨_, fault.message, rfl, by simp [ParameterType.int, hresult], ?_⟩
      by_cases hascii : IsAscii w
      · obtain ⟨n, hn⟩ := exists_denotes h hascii
        refine .intRange hn (Bool.eq_false_iff.2 fun hcontains => ?_)
        rw [(hread n).2 ⟨hn, hcontains⟩] at hresult
        cases hresult
      · exact .intScript hascii
  | @float name w h =>
    have hread := exists_readDouble_iff h
    cases hresult : readDouble w with
    | ok x =>
      refine .inl ⟨.float x, by simp [valueOf, ParameterType.float, hresult], .float hresult, ?_⟩
      exact fun hres => resists_float_iff.1 hres (hread.1 ⟨x, hresult⟩)
    | error fault =>
      refine .inr ⟨_, fault.message, rfl, by simp [ParameterType.float, hresult], ?_⟩
      refine .floatScript fun hascii => ?_
      obtain ⟨x, hx⟩ := hread.2 hascii
      rw [hx] at hresult
      cases hresult

end ParameterType

namespace PatternPiece

open Regex StepPattern

/-- A placeholder with the text that was taken for it. -/
structure Taken where
  name : Option String
  type : Option ParameterType
  raw : List Char

/-- The placeholders of the pieces with the texts for them, in order. -/
def taken : List PatternPiece → List (List Char) → List Taken
  | .literal _ :: pieces, raws => taken pieces raws
  | .placeholder name type :: pieces, raw :: raws => ⟨name, type, raw⟩ :: taken pieces raws
  | _, _ => []

/-- The text taken for the placeholder cannot be converted. -/
def Taken.Resists (t : Taken) : Prop := ParameterType.Resists t.type t.raw

/-- The argument is what the placeholder gives. -/
structure Taken.Gives (t : Taken) (a : Argument) : Prop where
  name : a.name = t.name
  raw : a.raw.toList = t.raw
  value : ParameterType.Converts t.type t.raw a.value

/-- What comes of the texts of placeholders, of which the first one has the index `n`: all
arguments, or the error for the first text that resists. -/
inductive Converted : Nat → List Taken → Except ConversionError (List Argument) → Prop where
  | nil {n : Nat} : Converted n [] (.ok [])
  | next {n : Nat} {t : Taken} {ts : List Taken} {a : Argument}
      {result : Except ConversionError (List Argument)} (hgives : t.Gives a) (ht : ¬ t.Resists)
      (h : Converted (n + 1) ts result) : Converted n (t :: ts) (result.map (a :: ·))
  | fault {n : Nat} {t : Taken} {ts : List Taken} {type : ParameterType} {detail : String}
      (htype : t.type = some type) (ht : t.Resists) :
      Converted n (t :: ts)
        (.error ⟨t.name.getD (toString n), String.ofList t.raw, type.name, detail⟩)

variable {n : Nat} {ts : List Taken} {result : Except ConversionError (List Argument)}

theorem Converted.exists_error_iff (h : Converted n ts result) :
    (∃ e, result = .error e) ↔ ∃ t ∈ ts, t.Resists := by
  induction h with
  | nil => simp
  | @next n t ts a result _ ht _ ih =>
    simp only [List.mem_cons, exists_eq_or_imp, ht, false_or]
    rw [← ih]
    cases result <;> simp [Except.map]
  | fault _ ht => exact ⟨fun _ => ⟨_, List.mem_cons_self, ht⟩, fun _ => ⟨_, rfl⟩⟩

/-- The error is about the first placeholder whose text resists. -/
def IsAboutFirst (n : Nat) (ts : List Taken) (e : ConversionError) : Prop :=
  ∃ before t after type, ts = before ++ t :: after ∧ (∀ s ∈ before, ¬ s.Resists) ∧ t.Resists ∧
    e.argument = t.name.getD (toString (n + before.length)) ∧ e.value.toList = t.raw ∧
    t.type = some type ∧ e.typeName = type.name

theorem Converted.isAboutFirst {e : ConversionError} (h : Converted n ts result)
    (hresult : result = .error e) : IsAboutFirst n ts e := by
  induction h with
  | nil => cases hresult
  | @next n t ts a result hgives ht _ ih =>
    obtain ⟨before, s, after, type, rfl, hbefore, hs, hargument, hrest⟩ :=
      ih (eq_error_of_map_eq_error hresult)
    refine ⟨t :: before, s, after, type, rfl, List.forall_mem_cons.2 ⟨ht, hbefore⟩, hs, ?_, hrest⟩
    rw [hargument, List.length_cons, Nat.add_assoc, Nat.add_comm 1]
  | fault htype ht =>
    cases hresult
    exact ⟨[], _, _, _, rfl, by simp, ht, rfl, String.toList_ofList, htype, rfl⟩

theorem Converted.forall₂_gives {args : List Argument} (h : Converted n ts result)
    (hresult : result = .ok args) : List.Forall₂ Taken.Gives ts args := by
  induction h generalizing args with
  | nil =>
    cases hresult
    exact .nil
  | next hgives _ _ ih =>
    obtain ⟨rest, hrest, rfl⟩ := exists_of_map_eq_ok hresult
    exact .cons hgives (ih hrest)
  | fault => cases hresult

variable {pieces : List PatternPiece} {raws : List (List Char)} {cs w : List Char} {walk : Walk}
  {names : List (Option String)} {i index : Nat}

/-- The arguments that are taken from between the marks of a walk come of the texts that the pieces
cover there. -/
theorem converted_argumentsOf
    (hnames : ∀ k, k < n + arity pieces → groupNumber? names (groupName k) = some (k + 1))
    (hmarks : ∀ m : Mark, n < m.index → (m ∈ walk.marks ↔ m ∈ marks n i pieces raws))
    (hcovers : Covers pieces raws w) (hw : cs.drop i = w) :
    Converted index (taken pieces raws)
      (argumentsOf cs walk index (placeholderParameters names n pieces)) := by
  induction hcovers generalizing n i index with
  | nil => exact .nil
  | @literal c pieces raws w h ih =>
    exact ih hnames hmarks (by rw [← List.drop_drop, hw, List.drop_one, List.tail_cons])
  | @placeholder name type pieces raw raws w hraw h ih =>
    have hspan := bind_span? (hnames n (by simp [arity])) hmarks
    have hrest : Converted (index + 1) (taken pieces raws) _ :=
      ih (fun k hk => hnames k (by simp only [arity]; omega))
        (fun m hm => (hmarks m (Nat.lt_of_succ_lt hm)).trans (mem_marks_placeholder_iff hm))
        (by rw [← List.drop_drop, hw, List.drop_left])
    have hslice : Text.slice cs i (i + raw.length) = raw := by simp [Text.slice, hw]
    rw [placeholderParameters, argumentsOf]
    simp only [hspan, hslice]
    obtain ⟨v, hv, hconverts, hres⟩ | ⟨t, detail, rfl, hdetail, hres⟩ :=
      ParameterType.converts_or_resists hraw
    · cases type with
      | none =>
        cases hv
        exact .next ⟨rfl, String.toList_ofList, hconverts⟩ hres hrest
      | some t =>
        have hv' : t.convert (String.ofList raw) = .ok v := hv
        simp only [hv']
        exact .next ⟨rfl, String.toList_ofList, hconverts⟩ hres hrest
    · simp only [hdetail]
      exact .fault (t := ⟨name, some t, raw⟩) rfl hres

end PatternPiece

namespace StepPattern

open Regex PatternPiece

variable {types : ParameterTypes} {source : String} {p : StepPattern}

/-- In a text that a pattern with placeholders of built-in types matches, each placeholder takes a
text. Some argument is not converted exactly if the text of a placeholder for integers has digits
of other scripts or denotes an integer of more than 64 bits, or that of a placeholder for doubles
has digits of other scripts; the first such placeholder is blamed, by its name or else by its index.
Otherwise the arguments are what the texts denote. -/
theorem placeholders_convert (h : ofPlaceholders types source = .ok p) :
    ∃ pieces, (∀ ps, Writes types source.toList ps ↔ ps = pieces) ∧
      (AllBuiltIn pieces → ∀ text : String, p.accepts text = true → ∃ walk raws result,
        p.regex.root.search text.toList.toArray = some (0, walk) ∧
        Covers pieces raws text.toList ∧ walk.marks.reverse = marks 0 0 pieces raws ∧
        p.extract? text = some result ∧
        ((∃ e, result = .error e) ↔ ∃ t ∈ taken pieces raws, t.Resists) ∧
        (∀ e, result = .error e → IsAboutFirst 0 (taken pieces raws) e) ∧
        ∀ args, result = .ok args → List.Forall₂ Taken.Gives (taken pieces raws) args) := by
  obtain ⟨pieces, hpieces, hanchored, hparameters⟩ := exists_of_ofPlaceholders h
  have hwrites := writes_all hpieces
  refine ⟨pieces, fun ps => ⟨fun hps => hps.unique hwrites, fun heq => heq ▸ hwrites⟩,
    fun hbuiltIn text haccepts => ?_⟩
  obtain ⟨hnames, htraces⟩ := traces_of_anchored_iff hbuiltIn hanchored
  rw [accepts, isFoundIn, Option.isSome_iff_exists] at haccepts
  obtain ⟨⟨start, walk⟩, hsearch⟩ := haccepts
  obtain ⟨hstart, hwalk⟩ := search_eq_some hsearch
  obtain ⟨rfl, -, raws, hcovers, hmarks⟩ := (htraces _ start _ _ hstart).1 hwalk
  have hconverted :
      Converted 0 (taken pieces raws) (argumentsOf text.toList walk 0 p.parameters) := by
    rw [hparameters]
    exact converted_argumentsOf (i := 0)
      (fun k hk => by rw [hnames]; exact groupNumber?_groupNames (by simpa using hk))
      (fun m _ => by rw [← hmarks, List.mem_reverse]) hcovers rfl
  have hextract : p.extract? text = some (argumentsOf text.toList walk 0 p.parameters) := by
    rw [extract?, hsearch]
    rfl
  exact ⟨walk, raws, _, hsearch, hcovers, hmarks, hextract, hconverted.exists_error_iff,
    fun e => hconverted.isAboutFirst, fun args => hconverted.forall₂_gives⟩

/-- One more than the largest integer of 64 bits is matched, but not converted. -/
theorem placeholders_convert_overflow : ∃ p, ofPlaceholders .builtIn "\x7bn:int\x7d" = .ok p ∧
    ∃ e, p.extract? "9223372036854775808" = some (.error e) ∧ e.argument = "n" ∧
      e.value = "9223372036854775808" ∧ e.typeName = "int" := by
  let piece : PatternPiece := .placeholder (some "n") (some (.int "int"))
  have hwrites : Writes .builtIn "\x7bn:int\x7d".toList [piece] :=
    @Writes.placeholder _ "n:int".toList _ _ _ (by simp [isBrace])
      (@WritesInner.typed _ ['n'] _ _ (by decide) rfl) .nil
  have hname : isNameText ['n'] = true := by decide
  have horderly : Orderly [piece] := ⟨by simp [name?, piece, hname], by simp [name?, piece],
    by simp [type?, piece, ParameterType.int]⟩
  have hbuiltIn : AllBuiltIn [piece] := by simp [AllBuiltIn, piece, ParameterType.builtIn]
  obtain ⟨p, h⟩ := exists_ofPlaceholders_of_totalWeight (all_eq_ok_iff.2 ⟨hwrites, horderly⟩)
    hbuiltIn (by decide)
  obtain ⟨pieces, hpieces, hconvert⟩ := placeholders_convert h
  obtain rfl := (hpieces _).1 hwrites
  have hdigits : ∀ c ∈ "9223372036854775808".toList, c.isDigit = true :=
    List.all_eq_true.1 (by decide)
  have hint : IsInt "9223372036854775808".toList :=
    ⟨[], _, rfl, .inl rfl, by decide, fun c hc => isDecimalDigit_of_isDigit (hdigits c hc)⟩
  have hresists : Taken.Resists ⟨some "n", some (.int "int"), "9223372036854775808".toList⟩ :=
    .intRange (.unsigned (by decide) hdigits) (by decide)
  have haccepts : p.accepts "9223372036854775808" = true := by
    obtain ⟨_, hall, hanchored, -⟩ := exists_of_ofPlaceholders h
    obtain rfl := (hpieces _).1 (writes_all hall)
    exact (accepts_iff_covers hbuiltIn hanchored _).2
      ⟨[_], .placeholder (ParameterType.allows_int_iff.2 hint) .nil⟩
  obtain ⟨walk, raws, result, -, hcovers, -, hextract, hexists, hfirst, -⟩ :=
    hconvert hbuiltIn _ haccepts
  obtain ⟨raw, rest, u, rfl, htext, -, hnil⟩ := covers_placeholder_iff.1 hcovers
  obtain ⟨rfl, rfl⟩ := covers_nil_iff.1 hnil
  obtain rfl : "9223372036854775808".toList = raw := htext.trans (List.append_nil raw)
  obtain ⟨e, rfl⟩ := hexists.2 ⟨_, List.mem_singleton_self _, hresists⟩
  obtain ⟨before, t, after, type, htaken, -, -, hargument, hvalue, htype, htypeName⟩ := hfirst e rfl
  cases before with
  | cons => simp [taken, piece] at htaken
  | nil =>
    obtain ⟨rfl, -⟩ := List.cons.inj htaken
    cases htype
    exact ⟨p, h, e, hextract, hargument, String.toList_inj.1 hvalue, htypeName⟩

end StepPattern

end Rehearsal
