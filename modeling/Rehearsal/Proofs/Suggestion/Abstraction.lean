import Rehearsal.Pattern.Suggestion
import Rehearsal.Proofs.Pattern.Scanning

/-!
# What a suggested pattern says

A suggestion takes a text apart: quoted texts and numbers become placeholders, and everything else
stands for itself. `Suggestion.Abstracts` says this of the pieces of a pattern, without a word on
how a pattern is written. The suggestion for a text writes such pieces (`exists_suggests`): the
braces that are doubled in it stand for the braces of the text, and what becomes a placeholder has
none.
-/

namespace Rehearsal

namespace Suggestion

open PatternPiece

/-- An optional sign, and a point between digits. -/
def IsDecimal (w : List Char) : Prop :=
  ∃ s d f, w = s ++ (d ++ '.' :: f) ∧ IsSign s ∧ IsDigits d ∧ IsDigits f

/-- The text is a number with a point, or an integer. -/
def IsNumber (isFloat : Bool) (w : List Char) : Prop := if isFloat then IsDecimal w else IsInt w

/-- The type of the placeholder for a number. -/
def numberType (isFloat : Bool) : ParameterType := if isFloat then .float "float" else .int "int"

/-- The pieces take the text apart: numbers are placeholders of their types, what is in double
quotes is a placeholder between quotes, and the other characters stand for themselves. Among these
may be one quote, with no other quote after it. -/
inductive Abstracts : List Char → List PatternPiece → Prop where
  | nil : Abstracts [] []
  | plain {c : Char} {cs : List Char} {pieces : List PatternPiece} (hc : c = '"' → '"' ∉ cs)
      (h : Abstracts cs pieces) : Abstracts (c :: cs) (.literal c :: pieces)
  | quoted {w cs : List Char} {pieces : List PatternPiece} (hw : '"' ∉ w)
      (h : Abstracts cs pieces) : Abstracts ('"' :: (w ++ '"' :: cs))
        (.literal '"' :: .placeholder none none :: .literal '"' :: pieces)
  | number {isFloat : Bool} {w cs : List Char} {pieces : List PatternPiece}
      (hw : IsNumber isFloat w) (h : Abstracts cs pieces) :
      Abstracts (w ++ cs) (.placeholder none (some (numberType isFloat)) :: pieces)

variable {before : Option Char} {c : Char} {isFloat : Bool} {cs tail rest w : List Char}
  {pieces : List PatternPiece}

/-! ### Parts of a text with doubled braces -/

theorem doubleBraces_cons_of_isBrace (hc : isBrace c = true) (cs : List Char) :
    doubleBraces (c :: cs) = c :: c :: doubleBraces cs := by
  have hbrace : (c = '\x7b' || c = '\x7d') = true := by simpa [isBrace] using hc
  rw [doubleBraces, if_pos hbrace]

theorem doubleBraces_cons_of_not_isBrace (hc : isBrace c = false) (cs : List Char) :
    doubleBraces (c :: cs) = c :: doubleBraces cs := by
  have hbrace : ¬ (c = '\x7b' || c = '\x7d') = true := by simpa [isBrace] using hc
  rw [doubleBraces, if_neg hbrace]

theorem mem_doubleBraces_iff : c ∈ doubleBraces cs ↔ c ∈ cs := by
  induction cs with
  | nil => rfl
  | cons d cs ih =>
    rw [doubleBraces]
    split_ifs <;> simp [ih]

/-- What has no braces stands in the text as it is. -/
theorem exists_of_doubleBraces_eq_append (hw : ∀ c ∈ w, isBrace c = false)
    (h : doubleBraces cs = w ++ rest) : ∃ more, cs = w ++ more ∧ rest = doubleBraces more := by
  induction w generalizing cs with
  | nil => exact ⟨cs, rfl, h.symm⟩
  | cons d w ih =>
    obtain ⟨hd, htail⟩ := List.forall_mem_cons.1 hw
    cases cs with
    | nil => cases h
    | cons c cs =>
      cases hc : isBrace c with
      | true =>
        rw [doubleBraces_cons_of_isBrace hc] at h
        obtain ⟨rfl, -⟩ := List.cons.inj h
        rw [hc] at hd
        cases hd
      | false =>
        rw [doubleBraces_cons_of_not_isBrace hc] at h
        obtain ⟨rfl, hcs⟩ := List.cons.inj h
        obtain ⟨more, rfl, hrest⟩ := ih htail hcs
        exact ⟨more, rfl, hrest⟩

/-! ### Quoted texts and numbers -/

theorem quoted?_of_notMem (hw : '"' ∉ w) : quoted? ('"' :: (w ++ '"' :: rest)) = some rest := by
  have hskip : ∀ c ∈ w, (c != '"') = true := fun c hc => by
    simpa using ne_of_mem_of_not_mem hc hw
  simp [quoted?, List.dropWhile_append_of_pos hskip]

theorem quoted?_unclosed (h : '"' ∉ tail) : quoted? ('"' :: tail) = none := by
  have hskip : tail.dropWhile (· != '"') = [] := by
    rw [List.dropWhile_eq_nil_iff]
    exact fun c hc => by simpa using ne_of_mem_of_not_mem hc h
  simp [quoted?, hskip]

theorem quoted?_of_ne (hc : c ≠ '"') : quoted? (c :: tail) = none := by
  rw [quoted?]
  intro rest heq
  exact hc (List.cons.inj heq).1

theorem exists_sign (cs : List Char) : ∃ s, IsSign s ∧ cs = s ++ dropSign cs := by
  rw [dropSign.eq_def]
  split
  · exact ⟨_, .inr (.inl rfl), rfl⟩
  · exact ⟨_, .inr (.inr rfl), rfl⟩
  · exact ⟨_, .inl rfl, rfl⟩

theorem isDigits_takeWhile (h : cs.takeWhile Text.isDecimalDigit ≠ []) :
    IsDigits (cs.takeWhile Text.isDecimalDigit) :=
  ⟨h, fun _ hc => List.mem_takeWhile_imp hc⟩

/-- What is taken for a number is one. -/
theorem exists_of_number? (h : number? before cs = some (isFloat, rest)) :
    ∃ w, cs = w ++ rest ∧ IsNumber isFloat w := by
  obtain ⟨s, hs, hcs⟩ := exists_sign cs
  rw [number?] at h
  generalize dropSign cs = ds at *
  have hcut := List.takeWhile_append_dropWhile (p := Text.isDecimalDigit) (l := ds)
  have hdigits := @isDigits_takeWhile ds
  generalize ds.takeWhile Text.isDecimalDigit = d at *
  generalize ds.dropWhile Text.isDecimalDigit = r at *
  dsimp only at h
  split at h
  · cases h
  split at h
  · cases h
  rename_i hne
  have hd : IsDigits d := hdigits (by simpa using hne)
  split at h
  · rename_i after hfraction
    obtain ⟨rfl, rfl⟩ := Prod.mk.inj (Option.some.inj h)
    split at hfraction
    · rename_i more
      split at hfraction
      · cases hfraction
      rename_i hends
      simp only [Bool.or_eq_true, not_or] at hends
      have hmore := List.takeWhile_append_dropWhile (p := Text.isDecimalDigit) (l := more)
      rw [Option.some.inj hfraction] at hmore
      exact ⟨s ++ (d ++ '.' :: more.takeWhile Text.isDecimalDigit), by simp [hcs, ← hcut, hmore],
        s, d, _, rfl, hs, hd, isDigits_takeWhile (by simpa using hends.1)⟩
    · cases hfraction
  · split at h
    · cases h
    obtain ⟨rfl, rfl⟩ := Prod.mk.inj (Option.some.inj h)
    exact ⟨s ++ d, by rw [hcs, ← hcut, List.append_assoc], s, d, rfl, hs, hd⟩

/-- The character is none that is written in numbers. -/
structure OutsideNumbers (c : Char) : Prop where
  digit : Text.isDecimalDigit c = false
  other : c ∉ ['-', '+', '.', 'e', 'E']

theorem OutsideNumbers.notMem_int (hc : OutsideNumbers c) (hw : IsInt w) : c ∉ w := by
  obtain ⟨s, d, rfl, hs, -, hd⟩ := hw
  have hdigits : c ∉ d := fun hmem => Bool.eq_false_iff.1 hc.digit (hd c hmem)
  have hother := hc.other
  rcases hs with rfl | rfl | rfl <;> simp_all

theorem OutsideNumbers.notMem_decimal (hc : OutsideNumbers c) (hw : IsDecimal w) : c ∉ w := by
  obtain ⟨s, d, f, rfl, hs, ⟨-, hd⟩, -, hf⟩ := hw
  have hdigits : c ∉ d := fun hmem => Bool.eq_false_iff.1 hc.digit (hd c hmem)
  have hfraction : c ∉ f := fun hmem => Bool.eq_false_iff.1 hc.digit (hf c hmem)
  have hother := hc.other
  rcases hs with rfl | rfl | rfl <;> simp_all

theorem OutsideNumbers.notMem (hc : OutsideNumbers c) (hw : IsNumber isFloat w) : c ∉ w := by
  cases isFloat with
  | false => exact hc.notMem_int hw
  | true => exact hc.notMem_decimal hw

theorem outsideNumbers_quote : OutsideNumbers '"' := ⟨by decide, by decide⟩

theorem outsideNumbers_of_isBrace (hc : isBrace c = true) : OutsideNumbers c := by
  have hbrace : c = '\x7b' ∨ c = '\x7d' := by simpa [isBrace] using hc
  rcases hbrace with rfl | rfl
  · exact ⟨by decide, by decide⟩
  · exact ⟨by decide, by decide⟩

theorem length_pos_of_isDigits {d : List Char} (hd : IsDigits d) : 0 < d.length :=
  List.length_pos_of_ne_nil hd.1

/-- A number has a digit, or one on either side of its point. -/
theorem IsNumber.le_length (hw : IsNumber isFloat w) :
    (if isFloat then 3 else 1) ≤ w.length := by
  cases isFloat with
  | false =>
    obtain ⟨s, d, rfl, -, hd⟩ := hw
    have hpos := length_pos_of_isDigits hd
    simp only [List.length_append, Bool.false_eq_true, if_false]
    omega
  | true =>
    obtain ⟨s, d, f, rfl, -, hd, hf⟩ := hw
    have hpos := length_pos_of_isDigits hd
    have hposFraction := length_pos_of_isDigits hf
    simp only [List.length_append, List.length_cons, if_true]
    omega

theorem IsNumber.ne_nil (hw : IsNumber isFloat w) : w ≠ [] := by
  have hle := hw.le_length
  rintro rfl
  cases isFloat <;> simp at hle

theorem IsNumber.isBrace_eq_false (hw : IsNumber isFloat w) : ∀ c ∈ w, isBrace c = false :=
  fun _ hc => Bool.eq_false_iff.2 fun hbrace => (outsideNumbers_of_isBrace hbrace).notMem hw hc

/-- No number begins where another character stands. -/
theorem number?_of_outsideNumbers (hc : OutsideNumbers c) : number? before (c :: tail) = none := by
  cases h : number? before (c :: tail) with
  | none => rfl
  | some found =>
    obtain ⟨w, hcut, hw⟩ := exists_of_number? h
    obtain ⟨d, w, rfl⟩ := List.exists_cons_of_ne_nil hw.ne_nil
    obtain ⟨rfl, -⟩ := List.cons.inj hcut
    exact absurd List.mem_cons_self (hc.notMem hw)

/-! ### The suggestion -/

@[simp] theorem replace_nil : replace before [] = [] := by rw [replace]

theorem replace_plain (hquoted : quoted? (c :: tail) = none)
    (hnumber : number? before (c :: tail) = none) :
    replace before (c :: tail) = c :: replace (some c) tail := by
  rw [replace]
  simp [hquoted, hnumber]

theorem replace_quoted (hquoted : quoted? (c :: tail) = some rest)
    (hle : rest.length ≤ tail.length) :
    replace before (c :: tail) = '"' :: '\x7b' :: '\x7d' :: '"' :: replace (some '"') rest := by
  rw [replace]
  simp [hquoted, hle]

theorem replace_number (hquoted : quoted? (c :: tail) = none)
    (hnumber : number? before (c :: tail) = some (isFloat, rest))
    (hle : rest.length ≤ tail.length) : replace before (c :: tail) =
      '\x7b' :: (':' :: (numberType isFloat).name.toList ++ '\x7d' :: replace (some '0') rest) := by
  rw [replace]
  cases isFloat <;> simp [hquoted, hnumber, hle, numberType, ParameterType.int, ParameterType.float]

theorem writesInner_numberType (isFloat : Bool) :
    WritesInner .builtIn (':' :: (numberType isFloat).name.toList)
      (.placeholder none (some (numberType isFloat))) := by
  cases isFloat with
  | false => exact @WritesInner.typed _ [] _ _ (by simp) rfl
  | true => exact @WritesInner.typed _ [] _ _ (by simp) rfl

theorem isBrace_numberType (isFloat : Bool) :
    ∀ c ∈ ':' :: (numberType isFloat).name.toList, isBrace c = false := by
  cases isFloat <;> simp [numberType, ParameterType.int, ParameterType.float, isBrace]

/-- Behind the given character the suggestion for the text writes the pieces, and they take the text
apart. -/
structure Suggests (before : Option Char) (cs : List Char) (pieces : List PatternPiece) : Prop where
  writes : Writes .builtIn (replace before (doubleBraces cs)) pieces
  abstracts : Abstracts cs pieces

theorem Suggests.brace (h : Suggests (some c) tail pieces) (hc : isBrace c = true) :
    Suggests before (c :: tail) (.literal c :: pieces) := by
  have houtside := outsideNumbers_of_isBrace hc
  have hquote : c ≠ '"' := by
    rintro rfl
    cases hc
  constructor
  · rw [doubleBraces_cons_of_isBrace hc,
      replace_plain (quoted?_of_ne hquote) (number?_of_outsideNumbers houtside),
      replace_plain (quoted?_of_ne hquote) (number?_of_outsideNumbers houtside)]
    exact .doubled hc h.writes
  · exact .plain (fun heq => absurd heq hquote) h.abstracts

theorem Suggests.plain (h : Suggests (some c) tail pieces) (hc : isBrace c = false)
    (hlast : c = '"' → '"' ∉ tail) (hnumber : number? before (c :: doubleBraces tail) = none) :
    Suggests before (c :: tail) (.literal c :: pieces) := by
  have hquoted : quoted? (c :: doubleBraces tail) = none := by
    by_cases hquote : c = '"'
    · subst hquote
      exact quoted?_unclosed (mt mem_doubleBraces_iff.1 (hlast rfl))
    · exact quoted?_of_ne hquote
  constructor
  · rw [doubleBraces_cons_of_not_isBrace hc, replace_plain hquoted hnumber]
    exact .plain hc h.writes
  · exact .plain hlast h.abstracts

theorem Suggests.quoted (h : Suggests (some '"') rest pieces) (hw : '"' ∉ w) :
    Suggests before ('"' :: (w ++ '"' :: rest))
      (.literal '"' :: .placeholder none none :: .literal '"' :: pieces) := by
  have hdoubled : doubleBraces ('"' :: (w ++ '"' :: rest)) =
      '"' :: (doubleBraces w ++ '"' :: doubleBraces rest) := by
    rw [doubleBraces_cons_of_not_isBrace rfl, doubleBraces_append,
      doubleBraces_cons_of_not_isBrace rfl]
  have hblank : WritesInner .builtIn [] (.placeholder none none) := .untyped (by simp)
  constructor
  · rw [hdoubled,
      replace_quoted (quoted?_of_notMem (mt mem_doubleBraces_iff.1 hw)) (by simp; omega)]
    exact .plain rfl (.placeholder (by simp) hblank (.plain rfl h.writes))
  · exact .quoted hw h.abstracts

theorem Suggests.number (h : Suggests (some '0') rest pieces) (hw : IsNumber isFloat (c :: w))
    (hnumber : number? before (doubleBraces (c :: (w ++ rest))) =
      some (isFloat, doubleBraces rest)) :
    Suggests before (c :: (w ++ rest))
      (.placeholder none (some (numberType isFloat)) :: pieces) := by
  obtain ⟨hc, -⟩ := List.forall_mem_cons.1 hw.isBrace_eq_false
  have hquote : c ≠ '"' := by
    rintro rfl
    exact outsideNumbers_quote.notMem hw List.mem_cons_self
  have hle : (doubleBraces rest).length ≤ (doubleBraces (w ++ rest)).length := by
    rw [doubleBraces_append, List.length_append]
    exact Nat.le_add_left ..
  constructor
  · rw [doubleBraces_cons_of_not_isBrace hc] at hnumber ⊢
    rw [replace_number (quoted?_of_ne hquote) hnumber hle]
    exact .placeholder (isBrace_numberType isFloat) (writesInner_numberType isFloat) h.writes
  · exact .number hw h.abstracts

/-- The suggestion for a text writes pieces that take the text apart. By induction on the length of
the text, of which a placeholder takes one character or more. -/
theorem exists_suggests (before : Option Char) (cs : List Char) :
    ∃ pieces, Suggests before cs pieces := by
  induction hlength : cs.length using Nat.strongRecOn generalizing before cs with
  | ind n ih =>
    have hshorter : ∀ {before more}, more.length < n → ∃ pieces, Suggests before more pieces :=
      fun hlt => ih _ hlt _ _ rfl
    cases cs with
    | nil => exact ⟨[], by simpa using Writes.nil, .nil⟩
    | cons c tail =>
      rw [List.length_cons] at hlength
      obtain ⟨pieces, htail⟩ := @hshorter (some c) tail (by omega)
      cases hc : isBrace c with
      | true => exact ⟨_, htail.brace hc⟩
      | false =>
        cases hnumber : number? before (c :: doubleBraces tail) with
        | none =>
          by_cases hquoted : c = '"' ∧ '"' ∈ tail
          · obtain ⟨rfl, hmem⟩ := hquoted
            obtain ⟨w, rest, rfl, hw⟩ := List.eq_append_cons_of_mem hmem
            obtain ⟨pieces, hrest⟩ := @hshorter (some '"') rest (by simp at hlength; omega)
            exact ⟨_, hrest.quoted hw⟩
          · exact ⟨_, htail.plain hc (fun hquote hmem => hquoted ⟨hquote, hmem⟩) hnumber⟩
        | some found =>
          obtain ⟨isFloat, more⟩ := found
          obtain ⟨w, hcut, hw⟩ := exists_of_number? hnumber
          obtain ⟨d, w, rfl⟩ := List.exists_cons_of_ne_nil hw.ne_nil
          obtain ⟨rfl, htext⟩ := List.cons.inj hcut
          obtain ⟨rest, rfl, rfl⟩ := exists_of_doubleBraces_eq_append
            (List.forall_mem_cons.1 hw.isBrace_eq_false).2 htext
          obtain ⟨pieces, hrest⟩ := @hshorter (some '0') rest (by simp at hlength; omega)
          exact ⟨_, hrest.number hw (by rwa [doubleBraces_cons_of_not_isBrace hc])⟩

end Suggestion

end Rehearsal
