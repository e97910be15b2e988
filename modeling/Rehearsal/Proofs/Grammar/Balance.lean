import Rehearsal.Proofs.Grammar.Groups

/-!
# Parentheses

`openAfter` counts the parentheses that are open while a text is read from left to right, and a text
is `Balanced` if none is left open and none is closed that is not. Derivations are balanced, so an
unbalanced text is refused in the keyword form. In the older form a closing parenthesis is a word
like others and may name a tag: such a text is refused if some word of it is not a group, and
otherwise holds only where a tag has this name (`unbalanced_cases`).
-/

namespace Rehearsal

namespace TagExpression

open Token (isInner isParen)

section OpenAfter

variable {α : Type} [DecidableEq α] (opening closing : α)

/-- How many openings are without a closing after one more element, if there were `n` before it;
nothing if it is a closing without an opening. -/
def openWith (n : Nat) (x : α) : Option Nat :=
  if x = opening then some (n + 1)
  else if x = closing then if n = 0 then none else some (n - 1)
  else some n

/-- How many openings are without a closing when the list was read, after `n` of them before it. -/
def openAfter (n : Nat) (xs : List α) : Option Nat := xs.foldlM (openWith opening closing) n

variable {opening closing}

theorem openAfter_cons (n : Nat) (x : α) (xs : List α) :
    openAfter opening closing n (x :: xs) =
      (openWith opening closing n x).bind fun m => openAfter opening closing m xs := rfl

theorem openAfter_append (n : Nat) (xs ys : List α) :
    openAfter opening closing n (xs ++ ys) =
      (openAfter opening closing n xs).bind fun m => openAfter opening closing m ys :=
  List.foldlM_append

theorem openAfter_of_neither {xs : List α} (h : ∀ x ∈ xs, x ≠ opening ∧ x ≠ closing) (n : Nat) :
    openAfter opening closing n xs = some n := by
  induction xs with
  | nil => rfl
  | cons x rest ih =>
    obtain ⟨hx, hrest⟩ := List.forall_mem_cons.1 h
    rw [openAfter_cons, openWith, if_neg hx.1, if_neg hx.2, Option.bind_some, ih hrest]

end OpenAfter

/-- No closing parenthesis comes without an open one, and none stays open. -/
def Balanced (cs : List Char) : Prop := openAfter '(' ')' 0 cs = some 0

instance (cs : List Char) : Decidable (Balanced cs) :=
  inferInstanceAs (Decidable (openAfter '(' ')' 0 cs = some 0))

variable {cs : List Char} {ts : List (List Char)}

theorem ne_paren_of_isInner {c : Char} (h : isInner c = true) : c ≠ '(' ∧ c ≠ ')' := by
  constructor <;>
  · rintro rfl
    cases h

/-- The parentheses of a text are those among its words. -/
theorem Cuts.openAfter_eq (h : Cuts cs ts) (n : Nat) :
    openAfter '(' ')' n cs = openAfter ['('] [')'] n ts := by
  induction h generalizing n with
  | nil => rfl
  | @blank c cs ts hc h ih =>
    have hparen : ∀ d ∈ [c], d ≠ '(' ∧ d ≠ ')' := by
      rw [List.forall_mem_singleton]
      constructor <;>
      · rintro rfl
        cases hc
    rw [← List.singleton_append, openAfter_append, openAfter_of_neither hparen]
    exact ih n
  | paren hc h ih =>
    rcases hc with rfl | rfl
    · exact ih (n + 1)
    · cases n with
      | zero => rfl
      | succ n => exact ih n
  | @run w cs ts hne hw hend h ih =>
    have hword : ∀ t ∈ [w], t ≠ ['('] ∧ t ≠ [')'] := by
      rw [List.forall_mem_singleton]
      constructor <;>
      · rintro rfl
        cases hw _ List.mem_cons_self
    rw [openAfter_append, openAfter_of_neither fun c hc => ne_paren_of_isInner (hw c hc),
      ← List.singleton_append (l := ts), openAfter_append, openAfter_of_neither hword]
    exact ih n

/-- A derivation closes the parentheses that it opens, and no others. -/
theorem Derives.openAfter_eq {I : Interpretation α} {rank : Rank} {a : α}
    (h : Derives I rank ts a) (n : Nat) : openAfter ['('] [')'] n ts = some n := by
  induction h generalizing n with
  | tag ht => exact openAfter_of_neither (List.forall_mem_singleton.2 ht.noParen) n
  | parens h ih =>
    rw [List.cons_append, openAfter_cons, openWith, if_pos rfl, Option.bind_some,
      openAfter_append, ih]
    rfl
  | primary h ih => exact ih n
  | not h ih => exact ih n
  | unary h ih => exact ih n
  | and h h' ih ih' =>
    rw [openAfter_append, ih]
    exact ih' n
  | conjunction h ih => exact ih n
  | or h h' ih ih' =>
    rw [openAfter_append, ih]
    exact ih' n

/-- What is read in the keyword form is balanced. -/
theorem balanced_of_parse {s : String} {e : TagExpression} (hcuts : Cuts s.toList ts)
    (hform : ¬ CommaForm ts) (h : parse s = .ok e) : Balanced s.toList := by
  rw [Balanced, hcuts.openAfter_eq]
  by_cases hne : ts = []
  · rw [hne]
    rfl
  · exact ((parse_eq_ok_iff hcuts hne hform).1 h).openAfter_eq 0

/-- A text in the older form that is not balanced has a closing parenthesis among its words. -/
theorem closing_mem_of_not_balanced (hcuts : Cuts cs ts) (hform : CommaForm ts)
    (h : ¬ Balanced cs) : [')'] ∈ ts := by
  by_contra hnone
  refine h ?_
  rw [Balanced, hcuts.openAfter_eq]
  refine openAfter_of_neither (fun t ht => ⟨(hform.1 t ht).2, ?_⟩) 0
  rintro rfl
  exact hnone ht

theorem groupHolds_closing (tags : List String) :
    GroupHolds tags [')'] ↔ ∃ tag ∈ tags, dropSigils tag.toList = [')'] := by
  have hsplit : Text.splitOn ',' [')'] = [[')']] := rfl
  simp [GroupHolds, hsplit, TermHolds, negates, termName, dropSigils]

/-- An unbalanced text is refused in the keyword form. In the older form it is refused if some word
is not a group, and otherwise what is read holds only where a tag is named `)`. -/
theorem unbalanced_cases {s : String} (h : ¬ Balanced s.toList) :
    ∃ ts, Cuts s.toList ts ∧ (¬ CommaForm ts → ∃ err, parse s = .error err) ∧
      (CommaForm ts → [')'] ∈ ts ∧ ((∃ err, parse s = .error err) ↔ ¬ ∀ w ∈ ts, IsGroup w) ∧
        ∀ e, parse s = .ok e → ∀ tags, e.holds tags = true →
          ∃ tag ∈ tags, dropSigils tag.toList = [')']) := by
  obtain ⟨ts, hcuts⟩ : ∃ ts, Cuts s.toList ts := ⟨_, map_text_all_eq_iff.1 rfl⟩
  refine ⟨ts, hcuts, fun hform => ?_, fun hform => ?_⟩
  · cases hparse : parse s with
    | error err => exact ⟨err, rfl⟩
    | ok e => exact absurd (balanced_of_parse hcuts hform hparse) h
  · have hclosing := closing_mem_of_not_balanced hcuts hform h
    refine ⟨hclosing, ?_⟩
    rcases parse_groups_cases hcuts hform with ⟨hnot, herror⟩ | ⟨hall, e, hparse, hholds⟩
    · refine ⟨⟨fun _ => hnot, fun _ => herror⟩, fun e he => ?_⟩
      obtain ⟨err, herr⟩ := herror
      rw [herr] at he
      cases he
    · refine ⟨⟨fun ⟨err, herr⟩ => ?_, fun hnot => absurd hall hnot⟩, fun e' he' tags htrue => ?_⟩
      · rw [hparse] at herr
        cases herr
      · rw [hparse, Except.ok.injEq] at he'
        rw [← he'] at htrue
        exact (groupHolds_closing tags).1 ((hholds tags).1 htrue _ hclosing)

/-- A text in the keyword form with a parenthesis that is never closed. -/
theorem unbalanced_cases_opening :
    ¬ Balanced "not (a".toList ∧ ∃ ts, Cuts "not (a".toList ts ∧ ¬ CommaForm ts ∧
      ∃ err, parse "not (a" = .error err := by
  have hopen : ¬ Balanced "not (a".toList := by decide
  obtain ⟨ts, hcuts, hkeyword, -⟩ := unbalanced_cases hopen
  have hmem : ['('] ∈ ts := by
    rw [← map_text_all_eq_iff.2 hcuts]
    decide
  have hform : ¬ CommaForm ts := fun h => (h.1 _ hmem).2 rfl
  exact ⟨hopen, ts, hcuts, hform, hkeyword hform⟩

/-- A text in the older form with a parenthesis that was never opened. It is read, and the
parenthesis is taken for a tag. -/
theorem closing_read_as_tag :
    ¬ Balanced "a,b )".toList ∧
      parse "a,b )" = .ok (and (or (tag "a") (tag "b")) (tag ")")) := by
  decide

end TagExpression

end Rehearsal
