import Mathlib.Algebra.Ring.Parity
import Rehearsal.Proofs.Matching
import Rehearsal.Proofs.Pattern.Size
import Rehearsal.Proofs.Suggestion.Abstraction
import Rehearsal.Result.Undefined

/-!
# Suggested patterns fit their steps

The pieces of a suggestion cover the text that they take apart, but for what stands in its quotes: a
placeholder takes at least one character and no line feed. Read from its start, a text has the
quotes of its suggestion and none to spare for a placeholder, so what stands in the quotes of the
one stands in the quotes of the other (`Suggestion.Abstracts.fitsQuotes`). A suggestion may still be
refused if it takes too much memory (`Suggestion.exists_ofPlaceholders_ofText`), and one that starts
with a caret is no pattern with placeholders at all. `Registry.suggestion_fits` is the main result.
-/

namespace Rehearsal

namespace Suggestion

open PatternPiece Regex StepPattern

/-- The text stands in double quotes: an even number of quotes comes before the one opening it. -/
def IsQuoted (text w : List Char) : Prop :=
  ∃ before after, text = before ++ '"' :: (w ++ '"' :: after) ∧ '"' ∉ w ∧ Even (before.count '"')

variable {c : Char} {isFloat : Bool} {text w u v cs : List Char} {pieces : List PatternPiece}
  {raws : List (List Char)}

/-! ### Texts in quotes -/

theorem IsQuoted.mem (h : IsQuoted text w) : '"' ∈ text := by
  obtain ⟨before, after, rfl, -⟩ := h
  simp

theorem not_isQuoted_of_notMem (h : '"' ∉ text) : ¬ IsQuoted ('"' :: text) w := by
  rintro ⟨_ | ⟨d, before⟩, after, htext, -⟩
  · simp [(List.cons.inj htext).2] at h
  · simp [(List.cons.inj htext).2] at h

theorem isQuoted_cons_iff (hc : c ≠ '"') : IsQuoted (c :: text) w ↔ IsQuoted text w := by
  constructor
  · rintro ⟨_ | ⟨d, before⟩, after, htext, hw, heven⟩
    · exact absurd (List.cons.inj htext).1 hc
    · obtain ⟨rfl, hrest⟩ := List.cons.inj htext
      exact ⟨before, after, hrest, hw, by simpa [hc] using heven⟩
  · rintro ⟨before, after, rfl, hw, heven⟩
    exact ⟨c :: before, after, rfl, hw, by simpa [hc] using heven⟩

theorem isQuoted_append_iff (hu : '"' ∉ u) : IsQuoted (u ++ text) w ↔ IsQuoted text w := by
  induction u with
  | nil => rfl
  | cons c u ih =>
    obtain ⟨hc, hu⟩ := List.ne_and_not_mem_of_not_mem_cons hu
    exact (isQuoted_cons_iff hc.symm).trans (ih hu)

/-- The first text in quotes, and those behind it. -/
theorem isQuoted_quote_iff (hv : '"' ∉ v) :
    IsQuoted ('"' :: (v ++ '"' :: text)) w ↔ w = v ∨ IsQuoted text w := by
  have hfirst : ∀ {x y rest rest' : List Char}, '"' ∉ x → '"' ∉ y →
      x ++ '"' :: rest = y ++ '"' :: rest' → x = y ∧ rest = rest' := fun hx hy =>
    eq_of_append_cons_eq (p := (· != '"')) (by simpa using fun c hc => ne_of_mem_of_not_mem hc hx)
      (by simpa using fun c hc => ne_of_mem_of_not_mem hc hy) (by simp) (by simp)
  constructor
  · rintro ⟨_ | ⟨d, before⟩, after, htext, hw, heven⟩
    · exact .inl (hfirst hw hv (List.cons.inj htext).2.symm).1
    · obtain ⟨rfl, hrest⟩ := List.cons.inj htext
      have hmem : '"' ∈ before := by
        by_contra hbefore
        simp [List.count_eq_zero.2 hbefore] at heven
      obtain ⟨x, more, rfl, hx⟩ := List.eq_append_cons_of_mem hmem
      obtain ⟨rfl, rfl⟩ := hfirst hv hx (hrest.trans (List.append_assoc ..))
      refine .inr ⟨more, after, rfl, hw, ?_⟩
      simpa [List.count_eq_zero.2 hx, Nat.even_add_one] using heven
  · rintro (rfl | ⟨before, after, rfl, hw, heven⟩)
    · exact ⟨[], text, rfl, hv, by simp⟩
    · refine ⟨'"' :: (v ++ '"' :: before), after, by simp, hw, ?_⟩
      simpa [List.count_eq_zero.2 hv, Nat.even_add_one] using heven

/-! ### What the pieces cover -/

theorem isFloat_of_isDecimal (hw : IsDecimal w) : IsFloat w := by
  obtain ⟨s, d, f, rfl, hs, hd, -, hf⟩ := hw
  exact ⟨s, _, [], by rw [List.append_nil], hs, .inl ⟨d, f, rfl, hd, hf⟩, .inl rfl⟩

theorem IsNumber.allows (hw : IsNumber isFloat w) :
    ParameterType.Allows (some (numberType isFloat)) w := by
  cases isFloat with
  | false => exact ParameterType.allows_int_iff.2 hw
  | true => exact ParameterType.allows_float_iff.2 (isFloat_of_isDecimal hw)

/-- The text can stand where the suggestion has a placeholder in quotes. -/
def FitsQuotes (w : List Char) : Prop := w ≠ [] ∧ ∀ c ∈ w, c ≠ '\n'

/-- The pieces cover the text that they take apart if the texts in quotes fit. -/
theorem Abstracts.exists_covers (h : Abstracts cs pieces)
    (hquoted : ∀ w, IsQuoted cs w → FitsQuotes w) : ∃ raws, Covers pieces raws cs := by
  induction h with
  | nil => exact ⟨[], .nil⟩
  | @plain c cs pieces hc h ih =>
    obtain ⟨raws, hraws⟩ := ih fun w hw => by
      by_cases hquote : c = '"'
      · exact absurd hw.mem (hc hquote)
      · exact hquoted w ((isQuoted_cons_iff hquote).2 hw)
    exact ⟨raws, .literal hraws⟩
  | @quoted v cs pieces hv h ih =>
    obtain ⟨raws, hraws⟩ := ih fun w hw => hquoted w ((isQuoted_quote_iff hv).2 (.inr hw))
    have hfits := hquoted v ((isQuoted_quote_iff hv).2 (.inl rfl))
    exact ⟨_, .literal (.placeholder (ParameterType.allows_none_iff.2 hfits) (.literal hraws))⟩
  | @number isFloat u cs pieces hu h ih =>
    obtain ⟨raws, hraws⟩ := ih fun w hw =>
      hquoted w ((isQuoted_append_iff (outsideNumbers_quote.notMem hu)).2 hw)
    exact ⟨_, .placeholder hu.allows hraws⟩

/-- The number of quotes among the literals. -/
def quotes : List PatternPiece → Nat
  | [] => 0
  | .literal c :: pieces => [c].count '"' + quotes pieces
  | .placeholder _ _ :: pieces => quotes pieces

theorem Abstracts.quotes_eq (h : Abstracts cs pieces) : quotes pieces = cs.count '"' := by
  induction h with
  | nil => rfl
  | plain _ _ ih => rw [quotes, ih, ← List.count_append, List.singleton_append]
  | quoted hw _ ih =>
    simp [quotes, ih, List.count_eq_zero.2 hw]
    omega
  | number hw _ ih => simp [quotes, ih, List.count_eq_zero.2 (outsideNumbers_quote.notMem hw)]

/-- The quotes of a text are the literal ones and those in the texts of the placeholders. -/
theorem count_of_covers (h : Covers pieces raws w) :
    w.count '"' = quotes pieces + raws.flatten.count '"' := by
  induction h with
  | nil => rfl
  | literal _ ih => rw [← List.singleton_append, List.count_append, ih, quotes, Nat.add_assoc]
  | placeholder _ _ ih =>
    rw [List.count_append, ih, quotes, List.flatten_cons, List.count_append, Nat.add_left_comm]

/-- What stands in quotes fits in a text that the pieces cover without quotes in placeholders. -/
theorem Abstracts.fitsQuotes (h : Abstracts cs pieces) (hcovers : Covers pieces raws text)
    (hraws : '"' ∉ raws.flatten) (hw : IsQuoted text w) : FitsQuotes w := by
  induction h generalizing raws text with
  | nil =>
    obtain ⟨-, rfl⟩ := covers_nil_iff.1 hcovers
    exact absurd hw.mem (by simp)
  | @plain c cs pieces hc h ih =>
    obtain ⟨u, rfl, htail⟩ := covers_literal_iff.1 hcovers
    by_cases hquote : c = '"'
    · subst hquote
      have hcount : u.count '"' = 0 := by
        rw [count_of_covers htail, h.quotes_eq, List.count_eq_zero.2 (hc rfl),
          List.count_eq_zero.2 hraws]
      exact absurd hw (not_isQuoted_of_notMem (List.count_eq_zero.1 hcount))
    · exact ih htail hraws ((isQuoted_cons_iff hquote).1 hw)
  | @quoted v cs pieces hv h ih =>
    obtain ⟨_, rfl, hopened⟩ := covers_literal_iff.1 hcovers
    obtain ⟨raw, rest, _, rfl, rfl, hraw, hclosed⟩ := covers_placeholder_iff.1 hopened
    obtain ⟨u, rfl, htail⟩ := covers_literal_iff.1 hclosed
    simp only [List.flatten_cons, List.mem_append, not_or] at hraws
    obtain rfl | hw := (isQuoted_quote_iff hraws.1).1 hw
    · exact ParameterType.allows_none_iff.1 hraw
    · exact ih htail hraws.2 hw
  | @number isFloat v cs pieces hv h ih =>
    obtain ⟨raw, rest, u, rfl, rfl, -, htail⟩ := covers_placeholder_iff.1 hcovers
    simp only [List.flatten_cons, List.mem_append, not_or] at hraws
    exact ih htail hraws.2 ((isQuoted_append_iff hraws.1).1 hw)

/-- The pieces that take a text apart cover it exactly if the texts in quotes fit. -/
theorem Abstracts.exists_covers_iff (h : Abstracts cs pieces) :
    (∃ raws, Covers pieces raws cs) ↔ ∀ w, IsQuoted cs w → FitsQuotes w := by
  refine ⟨fun ⟨raws, hcovers⟩ w hw => h.fitsQuotes hcovers ?_ hw, h.exists_covers⟩
  have hcount := count_of_covers hcovers
  rw [h.quotes_eq, Nat.left_eq_add] at hcount
  exact List.count_eq_zero.1 hcount

/-! ### The pattern -/

theorem Abstracts.allBuiltIn (h : Abstracts cs pieces) : AllBuiltIn pieces := by
  have hnumber : ∀ isFloat, numberType isFloat ∈ ParameterType.builtIn := fun isFloat => by
    cases isFloat <;> simp [numberType, ParameterType.builtIn]
  intro name type hmem
  induction h with
  | nil => cases hmem
  | plain _ _ ih => exact ih (by simpa using hmem)
  | quoted _ _ ih => exact ih (by simpa using hmem)
  | number _ _ ih =>
    rcases List.mem_cons.1 hmem with heq | hmem
    · cases heq
      exact hnumber _
    · exact ih hmem

/-- The placeholders of a suggestion have no names. -/
theorem Abstracts.orderly (h : Abstracts cs pieces) : Orderly pieces := by
  have hnumber : ∀ isFloat, (numberType isFloat).name ≠ "" := fun isFloat => by
    cases isFloat <;> simp [numberType, ParameterType.int, ParameterType.float]
  have hnames : pieces.filterMap name? = [] := by
    induction h with
    | nil => rfl
    | plain _ _ ih => simpa [name?] using ih
    | quoted _ _ ih => simpa [name?] using ih
    | number _ _ ih => simpa [name?] using ih
  refine ⟨by simp [hnames], by simp [hnames], ?_⟩
  clear hnames
  induction h with
  | nil => simp
  | plain _ _ ih => simpa [type?] using ih
  | quoted _ _ ih => simpa [type?] using ih
  | number _ _ ih => simpa [type?, hnumber] using ih

/-- The pieces of a suggestion. -/
theorem exists_pieces (text : String) : ∃ pieces, Abstracts text.toList pieces ∧
    Writes .builtIn (ofText text).toList pieces ∧
      PatternPiece.all .builtIn (ofText text) = .ok pieces := by
  obtain ⟨pieces, hwrites, habstracts⟩ := exists_suggests none text.toList
  have htext : Writes .builtIn (ofText text).toList pieces := by
    rw [ofText, String.toList_ofList]
    exact hwrites
  exact ⟨pieces, habstracts, htext, all_eq_ok_iff.2 ⟨htext, habstracts.orderly⟩⟩

/-- The first piece is a caret that stands for itself. -/
def StartsWithCaret : List PatternPiece → Prop
  | .literal c :: _ => c = '^'
  | _ => False

theorem head?_of_writes {types : ParameterTypes} (h : Writes types w pieces) :
    w.head? = some '^' ↔ StartsWithCaret pieces := by
  cases h with
  | nil => simp [StartsWithCaret]
  | plain _ _ => simp [StartsWithCaret]
  | doubled _ _ => simp [StartsWithCaret]
  | placeholder _ hpiece _ => cases hpiece <;> simp [StartsWithCaret]

theorem Abstracts.head?_iff (h : Abstracts cs pieces) :
    cs.head? = some '^' ↔ StartsWithCaret pieces := by
  have houtside : OutsideNumbers '^' := ⟨by decide, by decide⟩
  cases h with
  | nil => simp [StartsWithCaret]
  | plain _ _ => simp [StartsWithCaret]
  | quoted _ _ => simp [StartsWithCaret]
  | @number isFloat w cs pieces hw h =>
    obtain ⟨c, w, rfl⟩ := List.exists_cons_of_ne_nil hw.ne_nil
    have hc : c ≠ '^' := by
      rintro rfl
      exact houtside.notMem hw List.mem_cons_self
    simp [StartsWithCaret, hc]

/-- A caret in front is kept, and none is put there. -/
theorem head?_ofText_iff {text : String} :
    (ofText text).toList.head? = some '^' ↔ text.toList.head? = some '^' := by
  obtain ⟨pieces, habstracts, hwrites, -⟩ := exists_pieces text
  rw [head?_of_writes hwrites, habstracts.head?_iff]

/-- Whatever stands in double quotes in the text can stand in quotes in the pattern. -/
def QuotesFit (text : String) : Prop := ∀ w, IsQuoted text.toList w → FitsQuotes w

/-- A suggestion is a pattern that matches the text exactly if what stands in quotes fits. -/
theorem accepts_iff {text : String} {p : StepPattern}
    (hp : StepPattern.ofPlaceholders .builtIn (ofText text) = .ok p) :
    p.accepts text = true ↔ QuotesFit text := by
  obtain ⟨pieces, habstracts, hwrites, hall⟩ := exists_pieces text
  obtain ⟨pieces', hall', hanchored, -⟩ := StepPattern.exists_of_ofPlaceholders hp
  obtain rfl := Except.ok.inj (hall.symm.trans hall')
  rw [StepPattern.accepts_iff_covers habstracts.allBuiltIn hanchored, habstracts.exists_covers_iff,
    QuotesFit]

/-! ### The size of the pattern -/

/-- A single digit takes up most memory, next to a number with a point of three characters. -/
theorem Abstracts.totalWeight_le (h : Abstracts cs pieces) :
    totalWeight pieces ≤ 20600 * cs.length := by
  have huntyped : weight (.placeholder none none) = 4264 := by decide
  have hnumber : ∀ isFloat, weight (.placeholder none (some (numberType isFloat))) ≤
      20600 * (if isFloat then 3 else 1) := fun isFloat => by
    cases isFloat <;> decide
  induction h with
  | nil => exact Nat.le_refl 0
  | plain _ _ ih =>
    simp only [totalWeight, List.map_cons, List.sum_cons, weight, List.length_cons] at ih ⊢
    omega
  | quoted _ _ ih =>
    simp only [totalWeight, List.map_cons, List.sum_cons, huntyped, List.length_cons,
      List.length_append] at ih ⊢
    simp only [weight]
    omega
  | @number isFloat w cs pieces hw _ ih =>
    have hlength := Nat.mul_le_mul_left 20600 hw.le_length
    have hweight := hnumber isFloat
    simp only [totalWeight, List.map_cons, List.sum_cons, List.length_append] at ih ⊢
    omega

/-- The pattern is registered unless its expression takes too much memory, and that of a text of 500
characters never does. -/
theorem exists_ofPlaceholders_ofText (text : String) : ∃ pieces form c,
    Writes .builtIn (ofText text).toList pieces ∧ Reads (expression pieces) form c ∧
      ((∃ p, ofPlaceholders .builtIn (ofText text) = .ok p) ↔ c.root.fits = true) ∧
      (text.toList.length ≤ 500 → c.root.fits = true) := by
  obtain ⟨pieces, habstracts, hwrites, hall⟩ := exists_pieces text
  obtain ⟨form, c, hreads, hdepth, -⟩ := exists_reads_expression habstracts.allBuiltIn
  have hiff := exists_ofPlaceholders_iff hall hreads hdepth
  refine ⟨pieces, form, c, hwrites, hreads, hiff, fun hlength => hiff.1 ?_⟩
  refine exists_ofPlaceholders_of_totalWeight hall habstracts.allBuiltIn ?_
  have hweight := habstracts.totalWeight_le
  have hlimit : Memory.limit = 10485760 := rfl
  omega

end Suggestion

/-! ### The registry -/

def PatternClass.ofRegistrar (name : String) : PatternClass :=
  if name = "given" then context
  else if name = "when" then action
  else if name = "then" then outcome
  else any

/-- The definitions of the registrar for steps of a type are for steps of this type. -/
theorem PatternClass.accepts_ofRegistrar (type : Option KeywordClass) :
    (ofRegistrar (registrar type)).accepts type = true := by
  rcases type with _ | _ | _ | _ | _ <;> decide

namespace Registry

open Suggestion PatternPiece Regex StepPattern

variable {r r' : Registry W} {step : Step} {location : CodeLocation}
  {implementation : StepCall → Script W Outcome}

/-- Registers the pattern that is suggested for a step with the registrar that is named along with
it. -/
def registerSuggested (r : Registry W) (step : Step) (location : CodeLocation)
    (implementation : StepCall → Script W Outcome) : Except PatternError (Registry W) :=
  r.register (.ofRegistrar (registrar step.stepType)) (ofText step.text) false location
    implementation

/-- A step is undefined after a definition was added if it was before and the definition does not
fit either. -/
theorem find_add_eq_none_iff {d : StepDefinition W} :
    (r.add d).find step = .ok none ↔ r.find step = .ok none ∧ fits step d = false := by
  simp [find_eq_none_iff, add, List.filter_append]

theorem register_eq_map (r : Registry W) (forSteps : PatternClass) (pattern : String)
    (asRegex : Bool) (location : CodeLocation) (implementation : StepCall → Script W Outcome) :
    r.register forSteps pattern asRegex location implementation =
      (if asRegex then ofRegex pattern else StepPattern.compile r.types pattern).map
        fun p => r.add ⟨forSteps, p, location, implementation⟩ := by
  rw [register]
  cases if asRegex then ofRegex pattern else StepPattern.compile r.types pattern <;> rfl

theorem registerSuggested_eq_map (htypes : r.types = .builtIn)
    (hcaret : step.text.toList.head? ≠ some '^') :
    r.registerSuggested step location implementation =
      (ofPlaceholders .builtIn (ofText step.text)).map fun p =>
        r.add ⟨.ofRegistrar (registrar step.stepType), p, location, implementation⟩ := by
  rw [registerSuggested, register_eq_map, if_neg Bool.false_ne_true, htypes,
    compile_of_not_caret (mt head?_ofText_iff.1 hcaret)]

/-- With the pattern that was suggested for it, a step is undefined if what stands in its quotes
does not fit. -/
theorem find_add_suggested_iff {p : StepPattern}
    (hp : ofPlaceholders .builtIn (ofText step.text) = .ok p) :
    (r.add ⟨.ofRegistrar (registrar step.stepType), p, location, implementation⟩).find step =
      .ok none ↔ r.find step = .ok none ∧ ¬ QuotesFit step.text := by
  rw [find_add_eq_none_iff, ← accepts_iff hp]
  simp [fits, PatternClass.accepts_ofRegistrar]

/-- The pattern that is suggested for a step is a regular expression if the text starts with a
caret. Otherwise it is refused only if its expression takes too much memory, which that of a text of
500 characters never does. Once it is registered, it matches the text, and the step is undefined no
more, exactly if no text in double quotes is empty or goes over the end of a line. -/
theorem suggestion_fits (r : Registry W) (step : Step) (location : CodeLocation)
    (implementation : StepCall → Script W Outcome) (htypes : r.types = .builtIn) :
    (step.text.toList.head? = some '^' → r.registerSuggested step location implementation =
      r.register (.ofRegistrar (registrar step.stepType)) (ofText step.text) true location
        implementation) ∧
    (step.text.toList.head? ≠ some '^' → ∃ pieces form c,
      Writes .builtIn (ofText step.text).toList pieces ∧ Reads (expression pieces) form c ∧
      ((∃ r', r.registerSuggested step location implementation = .ok r') ↔ c.root.fits = true) ∧
      (step.text.toList.length ≤ 500 → c.root.fits = true) ∧
      ∀ r', r.registerSuggested step location implementation = .ok r' → ∃ d, r' = r.add d ∧
        (d.pattern.accepts step.text = true ↔ QuotesFit step.text) ∧
        (r'.find step = .ok none ↔ r.find step = .ok none ∧ ¬ QuotesFit step.text)) := by
  constructor
  · intro hcaret
    rw [registerSuggested, register_eq_map, register_eq_map, if_neg Bool.false_ne_true, if_pos rfl,
      compile_of_caret (head?_ofText_iff.2 hcaret)]
  · intro hcaret
    obtain ⟨pieces, form, c, hwrites, hreads, hiff, hsmall⟩ :=
      exists_ofPlaceholders_ofText step.text
    rw [registerSuggested_eq_map htypes hcaret]
    refine ⟨pieces, form, c, hwrites, hreads, ?_, hsmall, ?_⟩
    · rw [← hiff]
      cases ofPlaceholders .builtIn (ofText step.text) <;> simp [Except.map]
    · intro r' hr'
      obtain ⟨p, hp, rfl⟩ := exists_of_map_eq_ok hr'
      exact ⟨_, rfl, accepts_iff hp, find_add_suggested_iff hp⟩

/-- Braces, a number and a text in quotes. -/
theorem suggestion_fits_braces :
    let step := Step.ofClass .context "\x7ba\x7d \"b\" 4"
    ∃ r', (empty : Registry Unit).registerSuggested step ⟨"impl", 0⟩ (fun _ => .done .ok) = .ok r' ∧
      r'.find step ≠ .ok none := by
  intro step
  obtain ⟨pieces, form, c, -, -, hiff, hsmall, hfind⟩ :=
    (suggestion_fits (empty : Registry Unit) step ⟨"impl", 0⟩ (fun _ => .done .ok) rfl).2
      (by decide)
  obtain ⟨r', hr'⟩ := hiff.2 (hsmall (by decide))
  obtain ⟨d, -, -, hnone⟩ := hfind r' hr'
  have htext : step.text.toList = "\x7ba\x7d ".toList ++ '"' :: (['b'] ++ '"' :: [' ', '4']) := by
    decide
  have hquotes : QuotesFit step.text := by
    intro w hw
    rw [htext, isQuoted_append_iff (by decide), isQuoted_quote_iff (by decide)] at hw
    rcases hw with rfl | hw
    · exact ⟨by simp, by simp⟩
    · exact absurd hw.mem (by decide)
  exact ⟨r', hr', fun h => (hnone.1 h).2 hquotes⟩

/-- A placeholder takes at least one character, so a step with an empty text in quotes is not
matched by the pattern that is suggested for it. -/
theorem empty_quotes_stay_undefined :
    let step := Step.ofClass .context "the name is \"\""
    ∃ r', (empty : Registry Unit).registerSuggested step ⟨"impl", 0⟩ (fun _ => .done .ok) = .ok r' ∧
      r'.find step = .ok none := by
  intro step
  obtain ⟨pieces, form, c, -, -, hiff, hsmall⟩ := exists_ofPlaceholders_ofText step.text
  obtain ⟨p, hp⟩ := hiff.2 (hsmall (by decide))
  have hregister := @registerSuggested_eq_map Unit empty step ⟨"impl", 0⟩ (fun _ => .done .ok) rfl
    (by decide)
  have hundefined : (empty : Registry Unit).find step = .ok none := rfl
  have hempty : ¬ QuotesFit step.text := fun hquotes =>
    (hquotes [] ⟨"the name is ".toList, [], by decide, by simp, by decide⟩).1 rfl
  rw [hp] at hregister
  exact ⟨_, hregister, (find_add_suggested_iff hp).2 ⟨hundefined, hempty⟩⟩

end Registry

end Rehearsal
