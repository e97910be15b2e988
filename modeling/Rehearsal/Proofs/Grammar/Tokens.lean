import Rehearsal.Tag.Expression.Reader

/-!
# The words of a tag expression

`Cuts cs ts` says that the text `cs` is cut into the words `ts`, without a word on how it is read:
blanks are dropped, every parenthesis is a word, and so is every longest run of other characters.
The scan finds these words and no others (`map_text_all_eq_iff`), each with the number of characters
before it (`CutsAt`, `cutsAt_all`). `CommaForm` says which lists of words are left to the older
form.
-/

namespace Rehearsal

namespace TagExpression

open Token (isInner isParen scan)

/-- The text is cut into the words. -/
inductive Cuts : List Char → List (List Char) → Prop where
  | nil : Cuts [] []
  | blank {c : Char} {cs : List Char} {ts : List (List Char)} (hc : Text.isBlank c = true)
      (h : Cuts cs ts) : Cuts (c :: cs) ts
  | paren {c : Char} {cs : List Char} {ts : List (List Char)} (hc : c = '(' ∨ c = ')')
      (h : Cuts cs ts) : Cuts (c :: cs) ([c] :: ts)
  | run {w cs : List Char} {ts : List (List Char)} (hne : w ≠ []) (hw : ∀ c ∈ w, isInner c = true)
      (hend : ∀ c ∈ cs.head?, isInner c = false) (h : Cuts cs ts) : Cuts (w ++ cs) (w :: ts)

theorem isParen_iff {c : Char} : isParen c = true ↔ c = '(' ∨ c = ')' := by
  simp [isParen]

theorem not_isInner_of_isBlank {c : Char} (h : Text.isBlank c = true) : isInner c = false := by
  simp [isInner, h]

theorem not_isInner_of_isParen {c : Char} (h : isParen c = true) : isInner c = false := by
  simp [isInner, h]

theorem isBlank_of_outer {c : Char} (hinner : ¬ isInner c = true) (hparen : ¬ isParen c = true) :
    Text.isBlank c = true := by
  simpa [isInner, hparen] using hinner

/-- The text is cut into the tokens, where `n` characters stand before it. -/
inductive CutsAt : Nat → List Char → List Token → Prop where
  | nil {n : Nat} : CutsAt n [] []
  | blank {n : Nat} {c : Char} {cs : List Char} {toks : List Token} (hc : Text.isBlank c = true)
      (h : CutsAt (n + 1) cs toks) : CutsAt n (c :: cs) toks
  | paren {n : Nat} {c : Char} {cs : List Char} {toks : List Token} (hc : c = '(' ∨ c = ')')
      (h : CutsAt (n + 1) cs toks) : CutsAt n (c :: cs) (⟨[c], n⟩ :: toks)
  | run {n : Nat} {w cs : List Char} {toks : List Token} (hne : w ≠ [])
      (hw : ∀ c ∈ w, isInner c = true) (hend : ∀ c ∈ cs.head?, isInner c = false)
      (h : CutsAt (n + w.length) cs toks) : CutsAt n (w ++ cs) (⟨w, n⟩ :: toks)

theorem CutsAt.cuts {n : Nat} {cs : List Char} {toks : List Token} (h : CutsAt n cs toks) :
    Cuts cs (toks.map (·.text)) := by
  induction h with
  | nil => exact .nil
  | blank hc _ ih => exact .blank hc ih
  | paren hc _ ih => exact .paren hc ih
  | run hne hw hend _ ih => exact .run hne hw hend ih

/-- The run collected so far is a token, unless it is empty. -/
theorem CutsAt.close {n : Nat} {run cs : List Char} {toks : List Token}
    (hrun : ∀ c ∈ run, isInner c = true) (hend : ∀ c ∈ cs.head?, isInner c = false)
    (h : CutsAt (n + run.length) cs toks) :
    CutsAt n (run.reverse ++ cs) (Token.close run (n + run.length) ++ toks) := by
  by_cases hnil : run = []
  · subst hnil
    exact h
  · have hcut := CutsAt.run (n := n) (w := run.reverse) (by simpa using hnil) (by simpa using hrun)
      hend (by simpa using h)
    simpa [Token.close, hnil] using hcut

theorem cutsAt_scan {run : List Char} (hrun : ∀ c ∈ run, isInner c = true) (n : Nat)
    (cs : List Char) : CutsAt n (run.reverse ++ cs) (scan run (n + run.length) cs) := by
  induction cs generalizing run n with
  | nil => simpa [scan] using CutsAt.nil.close hrun (by simp)
  | cons c rest ih =>
    rw [scan]
    split
    · rename_i hc
      simpa [Nat.add_assoc] using ih (List.forall_mem_cons.2 ⟨hc, hrun⟩) n
    · have hrest : CutsAt (n + run.length + 1) rest (scan [] (n + run.length + 1) rest) :=
        ih (List.forall_mem_nil _) (n + run.length + 1)
      split
      · rename_i hc hparen
        exact (hrest.paren (isParen_iff.1 hparen)).close hrun
          (by simp [not_isInner_of_isParen hparen])
      · rename_i hc hparen
        have hblank := isBlank_of_outer hc hparen
        exact (hrest.blank hblank).close hrun (by simp [not_isInner_of_isBlank hblank])

/-- The tokens of a text know how many characters stand before them. -/
theorem cutsAt_all (cs : List Char) : CutsAt 0 cs (Token.all cs) :=
  cutsAt_scan (List.forall_mem_nil _) 0 cs

theorem scan_append {w : List Char} (hw : ∀ c ∈ w, isInner c = true) (run : List Char)
    (here : Nat) (cs : List Char) :
    scan run here (w ++ cs) = scan (w.reverse ++ run) (here + w.length) cs := by
  induction w generalizing run here with
  | nil => rfl
  | cons c rest ih =>
    obtain ⟨hc, hrest⟩ := List.forall_mem_cons.1 hw
    rw [List.cons_append, scan, if_pos hc, ih hrest]
    simp [Nat.add_right_comm, Nat.add_assoc]

/-- Where no run goes on, the scan starts anew. -/
theorem scan_of_outer {cs : List Char} (hend : ∀ c ∈ cs.head?, isInner c = false)
    (run : List Char) (here : Nat) :
    scan run here cs = Token.close run here ++ scan [] here cs := by
  cases cs with
  | nil => simp [scan]
  | cons c rest =>
    have hc : isInner c = false := hend c rfl
    simp only [scan, hc, Bool.false_eq_true, if_false]
    split <;> simp

theorem Cuts.map_text_scan {cs : List Char} {ts : List (List Char)} (h : Cuts cs ts)
    (here : Nat) : (scan [] here cs).map (·.text) = ts := by
  induction h generalizing here with
  | nil => rfl
  | @blank c cs ts hc h ih =>
    have hparen : isParen c = false := by
      refine Bool.eq_false_iff.2 fun hp => ?_
      rcases isParen_iff.1 hp with rfl | rfl <;> cases hc
    simp [scan, not_isInner_of_isBlank hc, hparen, ih]
  | paren hc h ih =>
    have hparen := isParen_iff.2 hc
    simp [scan, not_isInner_of_isParen hparen, hparen, ih]
  | @run w cs ts hne hw hend h ih =>
    rw [scan_append hw, scan_of_outer hend]
    simp [Token.close, hne, ih]

/-- The tokens of a text are its words. -/
theorem map_text_all_eq_iff {cs : List Char} {ts : List (List Char)} :
    (Token.all cs).map (·.text) = ts ↔ Cuts cs ts := by
  constructor
  · rintro rfl
    exact (cutsAt_all cs).cuts
  · exact fun h => h.map_text_scan 0

/-! ### The older form -/

def IsKeyword (t : List Char) : Prop :=
  t = "and".toList ∨ t = "or".toList ∨ t = "not".toList

/-- No word is a keyword or an opening parenthesis, and some word holds a comma or starts with `-`
or `~`. -/
def CommaForm (ts : List (List Char)) : Prop :=
  (∀ t ∈ ts, ¬ IsKeyword t ∧ t ≠ ['(']) ∧
    ∃ t ∈ ts, ',' ∈ t ∨ t.head? = some '-' ∨ t.head? = some '~'

theorem isKeyword_iff {t : List Char} : isKeyword t = true ↔ IsKeyword t := by
  simp only [isKeyword, IsKeyword, Bool.or_eq_true, beq_iff_eq, or_assoc]

theorem singleton_isPrefixOf_iff {c : Char} {t : List Char} :
    [c].isPrefixOf t = true ↔ t.head? = some c := by
  cases t with
  | nil => simp
  | cons d rest => simp [List.isPrefixOf, @eq_comm _ c]

theorem isCommaForm_iff {toks : List Token} :
    isCommaForm toks = true ↔ CommaForm (toks.map (·.text)) := by
  have hany : (∃ t ∈ toks.map (·.text), ',' ∈ t ∨ t.head? = some '-' ∨ t.head? = some '~') ↔
      ∃ t ∈ toks, ',' ∈ t.text ∨ t.text.head? = some '-' ∨ t.text.head? = some '~' := by
    constructor
    · rintro ⟨w, hmem, ht⟩
      obtain ⟨t, hword, rfl⟩ := List.mem_map.1 hmem
      exact ⟨t, hword, ht⟩
    · rintro ⟨t, hmem, ht⟩
      exact ⟨t.text, List.mem_map_of_mem hmem, ht⟩
  rw [CommaForm, hany, List.forall_mem_map]
  simp only [isCommaForm, Bool.and_eq_true, Bool.not_eq_true', List.any_eq_false,
    List.any_eq_true, Bool.or_eq_true, not_or, isKeyword_iff, beq_iff_eq, List.contains_iff_mem,
    singleton_isPrefixOf_iff, or_assoc, ne_eq]

end TagExpression

end Rehearsal
