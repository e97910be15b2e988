import Mathlib.Data.List.Basic
import Rehearsal.Value

/-!
# Written integers

`Number.Denotes` says which integer a text denotes: an optional sign and digits. Reading into a
range is exact (`Number.readInt_eq_ok_iff`): the text has to denote an integer of the range. The
targets of step arguments differ in their ranges only, but every text is read into the signed
integers of 64 bits first, so what lies above them is lost for the unsigned targets of 64 bits, too
(`Value.integers_cast`).
-/

namespace Rehearsal

namespace Text

theorem dropWhile_isBlank {cs : List Char} (h : ∀ c, cs.head? = some c → isBlank c = false) :
    cs.dropWhile isBlank = cs := by
  cases cs with
  | nil => rfl
  | cons c cs => exact trimStart_cons_of_not_blank c cs (h c rfl)

/-- Nothing is trimmed where no blank stands at an end. -/
theorem trimChars_eq_self {cs : List Char} (hfirst : ∀ c, cs.head? = some c → isBlank c = false)
    (hlast : ∀ c, cs.getLast? = some c → isBlank c = false) : trimChars cs = cs := by
  have hstart : trimStart cs = cs := dropWhile_isBlank hfirst
  have hend : cs.reverse.dropWhile isBlank = cs.reverse := by
    refine dropWhile_isBlank fun c hc => hlast c ?_
    rwa [List.getLast?_eq_head?_reverse]
  rw [trimChars, hstart, trimEnd, hend, List.reverse_reverse]

theorem isBlank_of_isDigit {c : Char} (h : c.isDigit = true) : isBlank c = false := by
  simp only [Char.isDigit, Bool.and_eq_true, decide_eq_true_eq, UInt32.le_iff_toNat_le] at h
  have hlo : 48 ≤ c.toNat := h.1
  have hhi : c.toNat ≤ 57 := h.2
  simp [isBlank]
  omega

end Text

namespace Number

theorem IntRange.contains_iff {r : IntRange} {n : Int} :
    r.contains n = true ↔ r.lo ≤ n ∧ n ≤ r.hi := by
  simp [contains]

/-- An optional sign and one or more ASCII digits denote the integer. -/
inductive Denotes : List Char → Int → Prop where
  | unsigned {ds : List Char} (hne : ds ≠ []) (hds : ∀ d ∈ ds, d.isDigit = true) :
      Denotes ds (Nat.ofDigitChars 10 ds 0)
  | plus {ds : List Char} (hne : ds ≠ []) (hds : ∀ d ∈ ds, d.isDigit = true) :
      Denotes ('+' :: ds) (Nat.ofDigitChars 10 ds 0)
  | minus {ds : List Char} (hne : ds ≠ []) (hds : ∀ d ∈ ds, d.isDigit = true) :
      Denotes ('-' :: ds) (-Nat.ofDigitChars 10 ds 0)

variable {r : IntRange} {cs ds : List Char} {n m : Int}

theorem not_forall_isDigit_cons {c : Char} (hc : c.isDigit = false) :
    ¬ ∀ d ∈ c :: ds, d.isDigit = true := fun h => by
  simpa [hc] using h c List.mem_cons_self

theorem denotes_plus_iff : Denotes ('+' :: ds) n ↔
    ds ≠ [] ∧ (∀ d ∈ ds, d.isDigit = true) ∧ n = Nat.ofDigitChars 10 ds 0 := by
  constructor
  · intro h
    cases h with
    | unsigned _ hds => exact absurd hds (not_forall_isDigit_cons rfl)
    | plus hne hds => exact ⟨hne, hds, rfl⟩
  · rintro ⟨hne, hds, rfl⟩
    exact .plus hne hds

theorem denotes_minus_iff : Denotes ('-' :: ds) n ↔
    ds ≠ [] ∧ (∀ d ∈ ds, d.isDigit = true) ∧ n = -Nat.ofDigitChars 10 ds 0 := by
  constructor
  · intro h
    cases h with
    | unsigned _ hds => exact absurd hds (not_forall_isDigit_cons rfl)
    | minus hne hds => exact ⟨hne, hds, rfl⟩
  · rintro ⟨hne, hds, rfl⟩
    exact .minus hne hds

/-- Without a sign only digits denote an integer. -/
theorem denotes_iff (hplus : cs.head? ≠ some '+') (hminus : cs.head? ≠ some '-') :
    Denotes cs n ↔
      cs ≠ [] ∧ (∀ d ∈ cs, d.isDigit = true) ∧ n = Nat.ofDigitChars 10 cs 0 := by
  constructor
  · intro h
    cases h with
    | unsigned hne hds => exact ⟨hne, hds, rfl⟩
    | plus => exact absurd rfl hplus
    | minus => exact absurd rfl hminus
  · rintro ⟨hne, hds, rfl⟩
    exact .unsigned hne hds

theorem Denotes.unique (h : Denotes cs n) (h' : Denotes cs m) : n = m := by
  cases h with
  | unsigned hne hds =>
    have hfirst : ∀ c : Char, cs.head? = some c → c.isDigit = true := fun c hc =>
      hds c (List.mem_of_mem_head? hc)
    exact ((denotes_iff (fun hc => by cases hfirst _ hc)
      fun hc => by cases hfirst _ hc).1 h').2.2.symm
  | plus => exact (denotes_plus_iff.1 h').2.2.symm
  | minus => exact (denotes_minus_iff.1 h').2.2.symm

/-! ### Reading digits -/

theorem le_ofDigitChars (ds : List Char) (n : Nat) : n ≤ Nat.ofDigitChars 10 ds n := by
  induction ds generalizing n with
  | nil => exact Nat.le_refl n
  | cons d ds ih =>
    rw [Nat.ofDigitChars_cons]
    exact Nat.le_trans (by omega) (ih _)

/-- Digits are read as the number that they stand for, unless it is too large. -/
theorem readUp_eq_ok_iff {n : Nat} (hn : (n : Int) ≤ r.hi) : readUp r n ds = .ok m ↔
    (∀ d ∈ ds, d.isDigit = true) ∧ m = Nat.ofDigitChars 10 ds n ∧ m ≤ r.hi := by
  induction ds generalizing n with
  | nil =>
    simp only [readUp_nil, Except.ok.injEq, List.not_mem_nil, false_imp_iff, implies_true, true_and]
    exact ⟨fun h => ⟨h.symm, h ▸ hn⟩, fun h => h.1.symm⟩
  | cons d ds ih =>
    have hstep : (10 * n + digitValue d : Int) = (10 * n + (d.toNat - '0'.toNat) : Nat) := by
      rw [digitValue]
      omega
    rw [readUp, Nat.ofDigitChars_cons, List.forall_mem_cons, hstep]
    cases hd : d.isDigit with
    | false => simp
    | true =>
      rw [Bool.not_true, if_neg Bool.false_ne_true]
      split_ifs with hle
      · have hbound := le_ofDigitChars ds (10 * n + (d.toNat - '0'.toNat))
        simp only [false_iff]
        rintro ⟨-, rfl, hm⟩
        omega
      · rw [ih (by omega)]
        simp

/-- Reading downwards is reading upwards on the other side of zero. -/
theorem readDown_eq_ok_iff_readUp :
    readDown r n ds = .ok m ↔ readUp ⟨-r.hi, -r.lo⟩ (-n) ds = .ok (-m) := by
  induction ds generalizing n with
  | nil => simp
  | cons d ds ih =>
    have hstep : -(10 * n - digitValue d : Int) = 10 * -n + digitValue d := by omega
    have hbound : -r.lo < 10 * -n + digitValue d ↔ 10 * n - digitValue d < r.lo := by omega
    rw [readDown, readUp]
    split_ifs with hd hlo hlo'
    · simp
    · simp
    · exact absurd (hbound.2 hlo) hlo'
    · exact absurd (hbound.1 ‹_›) hlo
    · rw [ih, hstep]

theorem readDown_eq_ok_iff {n : Nat} (hn : r.lo ≤ -n) : readDown r (-n) ds = .ok m ↔
    (∀ d ∈ ds, d.isDigit = true) ∧ m = -Nat.ofDigitChars 10 ds n ∧ r.lo ≤ m := by
  rw [readDown_eq_ok_iff_readUp, Int.neg_neg, readUp_eq_ok_iff (by simpa using (by omega))]
  exact and_congr_right fun _ => by dsimp only; omega

/-- A text is read as an integer of the range if it denotes one. A range without negative integers
takes no minus sign. -/
theorem readInt_eq_ok_iff (hlo : r.lo ≤ 0) (hhi : 0 ≤ r.hi) : readInt r cs = .ok n ↔
    Denotes cs n ∧ r.contains n = true ∧ (cs.head? = some '-' → r.lo < 0) := by
  have hup : ∀ ds, ds ≠ [] → (readUp r 0 ds = .ok n ↔
      (ds ≠ [] ∧ (∀ d ∈ ds, d.isDigit = true) ∧ n = Nat.ofDigitChars 10 ds 0) ∧
        r.contains n = true) := fun ds hne => by
    rw [show (0 : Int) = (0 : Nat) from rfl, readUp_eq_ok_iff hhi, IntRange.contains_iff]
    constructor
    · rintro ⟨hds, rfl, hle⟩
      exact ⟨⟨hne, hds, rfl⟩, by omega, hle⟩
    · rintro ⟨⟨-, hds, rfl⟩, -, hle⟩
      exact ⟨hds, rfl, hle⟩
  unfold readInt
  split
  · have hnone : ¬ Denotes [] n := fun h => ((denotes_iff (by simp) (by simp)).1 h).1 rfl
    simp [hnone]
  · rename_i ds
    cases ds with
    | nil => simp [denotes_plus_iff]
    | cons d ds => simp [hup, denotes_plus_iff]
  · rename_i ds
    have hdown : readDown r 0 ds = .ok n ↔
        (∀ d ∈ ds, d.isDigit = true) ∧ n = -Nat.ofDigitChars 10 ds 0 ∧ r.lo ≤ n :=
      readDown_eq_ok_iff (n := 0) hlo
    by_cases hneg : r.lo < 0
    · cases ds with
      | nil => simp [denotes_minus_iff]
      | cons d ds =>
        simp only [List.isEmpty_cons, hneg, decide_true, Bool.not_true, Bool.or_self,
          Bool.false_eq_true, if_false, hdown, denotes_minus_iff, IntRange.contains_iff]
        constructor
        · rintro ⟨hds, rfl, hle⟩
          exact ⟨⟨by simp, hds, rfl⟩, ⟨hle, by omega⟩, by simp⟩
        · rintro ⟨⟨-, hds, rfl⟩, ⟨hle, -⟩, -⟩
          exact ⟨hds, rfl, hle⟩
    · simp [hneg]
  · rename_i hnil hplus hminus
    have hplus' : cs.head? ≠ some '+' := fun hc => by
      obtain ⟨ds, rfl⟩ := List.head?_eq_some_iff.1 hc
      exact hplus ds rfl
    have hminus' : cs.head? ≠ some '-' := fun hc => by
      obtain ⟨ds, rfl⟩ := List.head?_eq_some_iff.1 hc
      exact hminus ds rfl
    rw [hup cs hnil, denotes_iff hplus' hminus']
    simp [hminus']

theorem readInt?_eq_some_iff (hlo : r.lo ≤ 0) (hhi : 0 ≤ r.hi) : readInt? r cs = some n ↔
    Denotes cs n ∧ r.contains n = true ∧ (cs.head? = some '-' → r.lo < 0) := by
  rw [← readInt_eq_ok_iff hlo hhi, readInt?]
  cases readInt r cs <;> simp [Except.toOption]

/-- A number is written as digits that denote it. -/
theorem denotes_toDigits (n : Nat) : Denotes (Nat.toDigits 10 n) n := by
  have h := @Denotes.unsigned (Nat.toDigits 10 n) Nat.toDigits_ne_nil
    fun d hd => Nat.isDigit_of_mem_toDigits (by decide) (by decide) hd
  rwa [Nat.ofDigitChars_ten_toDigits] at h

/-- An integer is written as a text that denotes it. -/
theorem denotes_toString (n : Int) : Denotes (toString n).toList n := by
  cases n with
  | ofNat n =>
    have htext : (toString (Int.ofNat n)).toList = Nat.toDigits 10 n := by
      change (toString n).toList = _
      simp
    rw [htext]
    exact denotes_toDigits n
  | negSucc n =>
    have htext : (toString (Int.negSucc n)).toList = '-' :: Nat.toDigits 10 (n + 1) := by
      change ("-" ++ toString (n + 1)).toList = _
      simp
    rw [htext, denotes_minus_iff, Nat.ofDigitChars_ten_toDigits]
    exact ⟨Nat.toDigits_ne_nil,
      fun d hd => Nat.isDigit_of_mem_toDigits (by decide) (by decide) hd, rfl⟩

/-- Nothing is trimmed off a text that denotes an integer. -/
theorem Denotes.trimChars (h : Denotes cs n) : Text.trimChars cs = cs := by
  have hblank : ∀ c ∈ cs, Text.isBlank c = false := by
    cases h with
    | unsigned _ hds => exact fun c hc => Text.isBlank_of_isDigit (hds c hc)
    | plus _ hds | minus _ hds =>
      exact List.forall_mem_cons.2 ⟨rfl, fun c hc => Text.isBlank_of_isDigit (hds c hc)⟩
  exact Text.trimChars_eq_self (fun c hc => hblank c (List.mem_of_mem_head? hc))
    fun c hc => hblank c (List.mem_of_getLast? hc)

end Number

namespace Value

open Number

/-- The integers that a target has. -/
def Target.integers? : Target → Option IntRange
  | signed64 => some .signed64
  | signed32 => some .signed32
  | unsigned32 => some .unsigned32
  | unsigned64 | machineWord => some .unsigned64
  | double | truth | text | value => none

/-- The value denotes the integer, as an integer of 64 bits or as a text with blanks around. -/
inductive Denotes : Value → Int → Prop where
  | int {n : Int} (h : IntRange.signed64.contains n = true) : Denotes (.int n) n
  | text {s : String} {n : Int} (h : Number.Denotes (Text.trimChars s.toList) n) :
      Denotes (.text s) n

variable {v : Value} {n m : Int}

theorem Denotes.unique (h : v.Denotes n) (h' : v.Denotes m) : n = m := by
  cases h with
  | int =>
    cases h'
    rfl
  | text h =>
    cases h' with
    | text h' => exact Number.Denotes.unique h h'

theorem toInt?_eq_some_iff : v.toInt? = some n ↔
    v.Denotes n ∧ IntRange.signed64.contains n = true := by
  cases v with
  | int m =>
    rw [toInt?, IntRange.narrow?_eq_some_iff]
    constructor
    · rintro ⟨rfl, hm⟩
      exact ⟨.int hm, hm⟩
    · rintro ⟨h, hm⟩
      cases h
      exact ⟨rfl, hm⟩
  | text s =>
    rw [toInt?, readInt?_eq_some_iff (by decide) (by decide)]
    constructor
    · rintro ⟨h, hn, -⟩
      exact ⟨.text h, hn⟩
    · rintro ⟨h, hn⟩
      cases h with
      | text h => exact ⟨h, hn, fun _ => by decide⟩
  | float x | truth b =>
    simp only [toInt?, reduceCtorEq, false_iff, not_and]
    intro h
    cases h

/-- An integer goes through the signed ones of 64 bits to every target. -/
theorem cast_of_integers? {t : Target} {r : IntRange} (ht : t.integers? = some r) :
    v.cast t = (v.toInt?.bind r.narrow?).map int := by
  cases t <;> cases ht <;> try rfl
  rw [cast]
  cases h : v.toInt? with
  | none => rfl
  | some n =>
    have hn := (toInt?_eq_some_iff.1 h).2
    simp [IntRange.narrow?, hn]

/-- A value that denotes an integer is converted to a target of integers exactly if the target has
it and it is a signed integer of 64 bits. The latter says nothing new but for the unsigned targets
of 64 bits. So what is written out of a target is read back unless it is above the signed
integers. -/
theorem integers_cast {t : Target} {r : IntRange} (ht : t.integers? = some r) {v : Value} {n : Int}
    (hv : v.Denotes n) :
    (IntRange.signed64.contains n = true →
      v.cast t = if r.contains n = true then some (int n) else none) ∧
    (IntRange.signed64.contains n = false → v.cast t = none) ∧
    ∀ m, r.contains m = true → IntRange.signed64.contains m = true →
      (text (toString m)).cast t = some (int m) := by
  have hexact : ∀ {v : Value} {n : Int}, v.Denotes n → IntRange.signed64.contains n = true →
      v.cast t = if r.contains n = true then some (int n) else none := by
    intro v n hv hn
    rw [cast_of_integers? ht, toInt?_eq_some_iff.2 ⟨hv, hn⟩, Option.bind_some, IntRange.narrow?]
    split_ifs <;> rfl
  refine ⟨hexact hv, fun hn => ?_, fun m hr hm => ?_⟩
  · have hnone : v.toInt? = none := by
      rw [Option.eq_none_iff_forall_ne_some]
      intro m hm
      obtain ⟨hv', hm⟩ := toInt?_eq_some_iff.1 hm
      rw [hv.unique hv', hm] at hn
      cases hn
    rw [cast_of_integers? ht, hnone]
    rfl
  · have hdenotes := denotes_toString m
    rw [hexact (.text (hdenotes.trimChars.symm ▸ hdenotes)) hm, if_pos hr]

/-- Blanks around a text, its sign and zeros in front do not count. -/
theorem integers_cast_padded : Target.unsigned32.integers? = some .unsigned32 ∧
    Denotes (text " +007 ") 7 ∧ (text " +007 ").cast .unsigned32 = some (int 7) := by
  have hseven : Denotes (text " +007 ") 7 :=
    .text (@Number.Denotes.plus ['0', '0', '7'] (by decide) (List.all_eq_true.1 rfl))
  obtain ⟨hcast, -, -⟩ := integers_cast (t := .unsigned32) rfl hseven
  exact ⟨rfl, hseven, hcast (by decide)⟩

/-- The least unsigned integer of 64 bits that is no signed one is not read as what it is. -/
theorem unsigned64_lost : Target.unsigned64.integers? = some .unsigned64 ∧
    IntRange.unsigned64.contains 9223372036854775808 = true ∧
    Denotes (text (toString (9223372036854775808 : Int))) 9223372036854775808 ∧
    (text (toString (9223372036854775808 : Int))).cast .unsigned64 = none := by
  have hdenotes := denotes_toString 9223372036854775808
  have hvalue : Denotes (text (toString (9223372036854775808 : Int))) 9223372036854775808 :=
    .text (hdenotes.trimChars.symm ▸ hdenotes)
  refine ⟨rfl, by decide, hvalue, ?_⟩
  rw [cast_of_integers? rfl, Option.map_eq_none_iff, Option.bind_eq_none_iff]
  intro m hm
  obtain ⟨hm, hcontains⟩ := toInt?_eq_some_iff.1 hm
  rw [← hvalue.unique hm] at hcontains
  cases hcontains

end Value

end Rehearsal
