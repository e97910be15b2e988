import Rehearsal.Proofs.Grammar
import Rehearsal.Text.Split

/-!
# Groups of terms

In the older form of tag expressions every word is a group, and its parts between commas are the
terms of the group. `IsTerm` says which texts are read as terms, and `TermHolds` when a term holds.
A text in this form is read if all its terms are terms indeed, and what is read holds when some term
holds in every group (`comma_form_holds`).
-/

namespace Rehearsal

namespace TagExpression

open Text (splitOn)

/-- Is the term negated, by a leading `-` or `~`? -/
def negates : List Char → Bool
  | '-' :: _ | '~' :: _ => true
  | _ => false

/-- The name in a term, without the `-` or `~` that negates it. -/
def termName : List Char → List Char
  | '-' :: rest | '~' :: rest => rest
  | t => t

structure IsTerm (t : List Char) : Prop where
  named : ∃ c ∈ termName t, c ≠ '@'
  noOperator : isOperatorLike (termName t) = false

/-- The term holds on the written tags: unless it is negated, one of them has its name. -/
def TermHolds (tags : List String) (t : List Char) : Prop :=
  (∃ tag ∈ tags, dropSigils tag.toList = dropSigils (termName t)) ↔ negates t = false

/-! ### Terms -/

theorem readTerm_eq (t : Token) : readTerm t =
    if (dropSigils (termName t.text)).isEmpty then .error ⟨.emptyTerm, t⟩
    else if isOperatorLike (termName t.text) then .error ⟨.unknownOperator, t⟩
    else .ok (if negates t.text then not (ofTagText (termName t.text))
      else ofTagText (termName t.text)) := by
  obtain ⟨text, position⟩ := t
  cases text with
  | nil => rfl
  | cons c rest =>
    by_cases hdash : c = '-'
    · rw [hdash]
      rfl
    by_cases htilde : c = '~'
    · rw [htilde]
      rfl
    simp [readTerm, negates, termName, hdash, htilde]

theorem holds_ofTagText (tags : List String) (text : List Char) :
    (ofTagText text).holds tags = true ↔
      ∃ tag ∈ tags, dropSigils tag.toList = dropSigils text := by
  simp [ofTagText, holds, isTagged_iff]

/-- A term is read, or refused if the text is none. -/
theorem readTerm_cases (t : Token) :
    (¬ IsTerm t.text ∧ ∃ m, readTerm t = .error m) ∨
      (IsTerm t.text ∧ ∃ e, readTerm t = .ok e ∧
        ∀ tags, e.holds tags = true ↔ TermHolds tags t.text) := by
  rw [readTerm_eq]
  split
  · rename_i hempty
    exact .inl ⟨fun h => dropSigils_isEmpty_iff.1 hempty h.named, _, rfl⟩
  · rename_i hnamed
    rw [dropSigils_isEmpty_iff, not_not] at hnamed
    split
    · rename_i hoperator
      refine .inl ⟨fun h => ?_, _, rfl⟩
      rw [h.noOperator] at hoperator
      cases hoperator
    · rename_i hoperator
      rw [Bool.not_eq_true] at hoperator
      refine .inr ⟨⟨hnamed, hoperator⟩, _, rfl, fun tags => ?_⟩
      rw [TermHolds, ← holds_ofTagText]
      cases negates t.text <;> simp [holds]

/-- The terms of a token are the parts of its text between commas. -/
theorem map_text_splitTerms (start : Nat) (run cs : List Char) :
    (splitTerms start run cs).map (·.text) = (splitOn ',' cs).modifyHead (run.reverse ++ ·) := by
  induction cs generalizing start run with
  | nil => simp [splitTerms, splitOn]
  | cons c rest ih =>
    rw [splitTerms, splitOn]
    split
    · rw [List.map_cons, ih]
      cases splitOn ',' rest <;> simp
    · rw [ih]
      cases hparts : splitOn ',' rest with
      | nil => exact absurd hparts (Text.splitOn_ne_nil ',' rest)
      | cons part parts => simp

/-! ### Groups -/

/-- The terms after `left` are read one by one, and are alternatives. -/
theorem readTerms_cases (left : Option TagExpression) (toks : List Token) :
    ((¬ ∀ t ∈ toks, IsTerm t.text) ∧ ∃ m, readTerms left toks = .error m) ∨
      ((∀ t ∈ toks, IsTerm t.text) ∧ ∃ r, readTerms left toks = .ok r ∧
        (r = none → left = none ∧ toks = []) ∧
        ∀ tags, (∃ e ∈ r, e.holds tags = true) ↔
          (∃ e ∈ left, e.holds tags = true) ∨ ∃ t ∈ toks, TermHolds tags t.text) := by
  induction toks generalizing left with
  | nil => exact .inr ⟨by simp, left, rfl, fun h => ⟨h, rfl⟩, by simp⟩
  | cons t rest ih =>
    rw [List.forall_mem_cons]
    rcases readTerm_cases t with ⟨hnot, m, herror⟩ | ⟨hterm, e, hread, hholds⟩
    · refine .inl ⟨fun h => hnot h.1, m, ?_⟩
      rw [readTerms, herror]
      rfl
    · have hstep : readTerms left (t :: rest) = readTerms (some (joinLeft or left e)) rest := by
        rw [readTerms, hread]
        rfl
      rw [hstep]
      rcases ih (some (joinLeft or left e)) with ⟨hnot, herror⟩ | ⟨hall, r, hr, hnone, hr'⟩
      · exact .inl ⟨fun h => hnot h.2, herror⟩
      · refine .inr ⟨⟨hterm, hall⟩, r, hr, fun h => ?_, fun tags => ?_⟩
        · cases (hnone h).1
        · simp only [hr', List.mem_cons, exists_eq_or_imp, ← hholds, ← or_assoc]
          refine or_congr_left ?_
          cases left <;> simp [joinLeft, holds]

def IsGroup (w : List Char) : Prop := ∀ t ∈ splitOn ',' w, IsTerm t

def GroupHolds (tags : List String) (w : List Char) : Prop := ∃ t ∈ splitOn ',' w, TermHolds tags t

theorem readGroup_cases (t : Token) :
    (¬ IsGroup t.text ∧ ∃ m, readTerms none (splitTerms t.position [] t.text) = .error m) ∨
      (IsGroup t.text ∧ ∃ e, readTerms none (splitTerms t.position [] t.text) = .ok (some e) ∧
        ∀ tags, e.holds tags = true ↔ GroupHolds tags t.text) := by
  have hterms : (splitTerms t.position [] t.text).map (·.text) = splitOn ',' t.text := by
    rw [map_text_splitTerms]
    cases splitOn ',' t.text <;> rfl
  have hgroup : IsGroup t.text ↔ ∀ x ∈ splitTerms t.position [] t.text, IsTerm x.text := by
    rw [IsGroup, ← hterms, List.forall_mem_map]
  have hholds : ∀ tags, GroupHolds tags t.text ↔
      ∃ x ∈ splitTerms t.position [] t.text, TermHolds tags x.text := by
    intro tags
    rw [GroupHolds, ← hterms]
    simp only [List.mem_map, exists_exists_and_eq_and]
  rw [hgroup]
  rcases readTerms_cases none (splitTerms t.position [] t.text) with
    ⟨hnot, herror⟩ | ⟨hall, r, hr, hnone, hr'⟩
  · exact .inl ⟨hnot, herror⟩
  · cases r with
    | none =>
      rw [(hnone rfl).2] at hterms
      exact absurd hterms.symm (Text.splitOn_ne_nil ',' t.text)
    | some e =>
      refine .inr ⟨hall, e, hr, fun tags => ?_⟩
      rw [hholds]
      simpa using hr' tags

/-- The groups after `left` are read one by one, and all of them must hold. -/
theorem readGroups_cases (left : Option TagExpression) (toks : List Token) :
    ((¬ ∀ t ∈ toks, IsGroup t.text) ∧ ∃ m, readGroups left toks = .error m) ∨
      ((∀ t ∈ toks, IsGroup t.text) ∧ ∃ r, readGroups left toks = .ok r ∧
        ∀ tags, (∀ e ∈ r, e.holds tags = true) ↔
          (∀ e ∈ left, e.holds tags = true) ∧ ∀ t ∈ toks, GroupHolds tags t.text) := by
  induction toks generalizing left with
  | nil => exact .inr ⟨by simp, left, rfl, by simp⟩
  | cons t rest ih =>
    rw [List.forall_mem_cons]
    rcases readGroup_cases t with ⟨hnot, m, herror⟩ | ⟨hgroup, e, hread, hholds⟩
    · refine .inl ⟨fun h => hnot h.1, m, ?_⟩
      rw [readGroups, herror]
      rfl
    · have hstep : readGroups left (t :: rest) = readGroups (some (joinLeft and left e)) rest := by
        rw [readGroups, hread]
        rfl
      rw [hstep]
      rcases ih (some (joinLeft and left e)) with ⟨hnot, herror⟩ | ⟨hall, r, hr, hr'⟩
      · exact .inl ⟨fun h => hnot h.2, herror⟩
      · refine .inr ⟨⟨hgroup, hall⟩, r, hr, fun tags => ?_⟩
        rw [hr', List.forall_mem_cons, ← hholds, ← and_assoc]
        refine and_congr_left fun _ => ?_
        cases left <;> simp [joinLeft, holds]

/-- A text in the older form is read if all its words are groups, and then holds if all of them
do. -/
theorem parse_groups_cases {s : String} {ts : List (List Char)} (hcuts : Cuts s.toList ts)
    (hform : CommaForm ts) :
    ((¬ ∀ w ∈ ts, IsGroup w) ∧ ∃ err, parse s = .error err) ∨
      ((∀ w ∈ ts, IsGroup w) ∧ ∃ e, parse s = .ok e ∧
        ∀ tags, e.holds tags = true ↔ ∀ w ∈ ts, GroupHolds tags w) := by
  obtain rfl := map_text_all_eq_iff.2 hcuts
  have hempty : (Token.all s.toList).isEmpty = false := by
    obtain ⟨-, w, hw, -⟩ := hform
    obtain ⟨t, ht, -⟩ := List.mem_map.1 hw
    exact List.isEmpty_eq_false_iff.2 (List.ne_nil_of_mem ht)
  rw [← isCommaForm_iff] at hform
  rw [parse, readTokens, hempty, if_neg Bool.false_ne_true, if_pos hform, List.forall_mem_map]
  rcases readGroups_cases none (Token.all s.toList) with ⟨hnot, m, hm⟩ | ⟨hall, r, hr, hholds⟩
  · rw [hm]
    exact .inl ⟨hnot, _, rfl⟩
  · rw [hr]
    refine .inr ⟨hall, _, rfl, fun tags => ?_⟩
    rw [List.forall_mem_map]
    cases r with
    | none => simpa [holds] using hholds tags
    | some e => simpa using hholds tags

/-- A text in the older form is read if and only if all terms of its words are terms indeed: what is
left without one leading `-` or `~` names a tag and is no operator. What is read is then true just
where every word has a term that holds. -/
theorem comma_form_holds {s : String} {ts : List (List Char)} (hcuts : Cuts s.toList ts)
    (hform : CommaForm ts) :
    ((∃ e, parse s = .ok e) ↔ ∀ w ∈ ts, ∀ t ∈ splitOn ',' w, IsTerm t) ∧
      ∀ e, parse s = .ok e → ∀ tags,
        e.holds tags = true ↔ ∀ w ∈ ts, ∃ t ∈ splitOn ',' w, TermHolds tags t := by
  rcases parse_groups_cases hcuts hform with ⟨hnot, err, herr⟩ | ⟨hall, e, he, hholds⟩
  · have hnone : ∀ e, parse s ≠ .ok e := fun e he => by
      rw [herr] at he
      cases he
    exact ⟨⟨fun ⟨e, he⟩ => absurd he (hnone e), fun hall => absurd hall hnot⟩,
      fun e he => absurd he (hnone e)⟩
  · refine ⟨⟨fun _ => hall, fun _ => ⟨e, he⟩⟩, fun e' he' => ?_⟩
    obtain rfl := Except.ok.inj (he.symm.trans he')
    exact hholds

/-- Terms of all three kinds in one text, with leading `@`, and a name that itself begins with a
dash. -/
theorem comma_form_holds_negated :
    let ts := ["@a,~@@b", "--c"].map String.toList
    let e := and (or (tag "a") (not (tag "b"))) (not (tag "-c"))
    Cuts "@a,~@@b --c".toList ts ∧ CommaForm ts ∧ parse "@a,~@@b --c" = .ok e ∧
      (∀ w ∈ ts, ∀ t ∈ splitOn ',' w, IsTerm t) ∧
      (∀ w ∈ ts, ∃ t ∈ splitOn ',' w, TermHolds ["a", "b", "c"] t) ∧
      ¬ ∀ w ∈ ts, ∃ t ∈ splitOn ',' w, TermHolds ["a", "@-c"] t := by
  intro ts e
  have hcuts : Cuts "@a,~@@b --c".toList ts := map_text_all_eq_iff.1 (by decide)
  have hform : CommaForm ts := by
    rw [← map_text_all_eq_iff.2 hcuts]
    exact isCommaForm_iff.1 (by decide)
  have hparse : parse "@a,~@@b --c" = .ok e := by decide
  obtain ⟨hread, hholds⟩ := comma_form_holds hcuts hform
  refine ⟨hcuts, hform, hparse, hread.1 ⟨e, hparse⟩, (hholds e hparse _).1 (by decide), ?_⟩
  rw [← hholds e hparse]
  decide

end TagExpression

end Rehearsal
