import Rehearsal.Proofs.Grammar

/-!
# Printed tag expressions

Printed expressions are read back as they are. A printed tag starts with `@`, so no name is ever
taken for a keyword, an operator or the older form, and the parentheses around every `and` and `or`
leave nothing to precedence.
-/

namespace Rehearsal

namespace TagExpression

/-- A name that is read back: not empty, without blanks, parentheses and commas, and without `@` at
its start. -/
structure Plain (name : String) : Prop where
  nonempty : name.toList ≠ []
  chars : ∀ c ∈ name.toList, Text.isBlank c = false ∧ c ≠ '(' ∧ c ≠ ')' ∧ c ≠ ','
  noSigil : name.toList.head? ≠ some '@'

/-- An expression built from tags with plain names. -/
def Printable : TagExpression → Prop
  | always => False
  | tag name => Plain name
  | not inner => Printable inner
  | and left right => Printable left ∧ Printable right
  | or left right => Printable left ∧ Printable right

def words : TagExpression → List (List Char)
  | always => []
  | tag name => ['@' :: name.toList]
  | not inner => "not".toList :: words inner
  | and left right => ['('] :: (words left ++ "and".toList :: words right) ++ [[')']]
  | or left right => ['('] :: (words left ++ "or".toList :: words right) ++ [[')']]

namespace Plain

variable {name : String} (h : Plain name)
include h

theorem dropSigils_eq : dropSigils ('@' :: name.toList) = name.toList := by
  have hhead := h.noSigil
  rw [dropSigils, List.dropWhile_cons_of_pos (by decide)]
  cases hname : name.toList with
  | nil => rfl
  | cons c rest =>
    rw [hname, List.head?_cons, ne_eq, Option.some.injEq] at hhead
    exact List.dropWhile_cons_of_neg (by simpa using hhead)

theorem isInner : ∀ c ∈ '@' :: name.toList, Token.isInner c = true := by
  refine List.forall_mem_cons.2 ⟨by decide, fun c hc => ?_⟩
  obtain ⟨hblank, hopen, hclose, -⟩ := h.chars c hc
  simp [Token.isInner, Token.isParen, hblank, hopen, hclose]

theorem isTag : IsTag ('@' :: name.toList) where
  noParen := by simp
  noKeyword := by simp [IsKeyword]
  noOperator := by simp [isOperatorLike, List.isPrefixOf]
  named := by
    obtain ⟨c, rest, hname⟩ := List.exists_cons_of_ne_nil h.nonempty
    have hhead := h.noSigil
    rw [hname, List.head?_cons, ne_eq, Option.some.injEq] at hhead
    exact ⟨c, by simp [hname], hhead⟩

end Plain

/-! ### The words of a printed expression -/

theorem cuts_blank_word {w cs : List Char} {ts : List (List Char)} (hne : w ≠ [])
    (hw : ∀ c ∈ w, Token.isInner c = true) (h : Cuts cs ts) :
    Cuts (w ++ ' ' :: cs) (w :: ts) :=
  .run hne hw (by simp [Token.isInner, Text.isBlank]) (h.blank (by decide))

/-- The printed text of two operands in parentheses. -/
theorem cuts_joined {left right cs : List Char} {us vs ts : List (List Char)} (op : List Char)
    (hne : op ≠ []) (hop : ∀ c ∈ op, Token.isInner c = true)
    (hleft : ∀ {cs ts}, (∀ c ∈ cs.head?, Token.isInner c = false) → Cuts cs ts →
      Cuts (left ++ cs) (us ++ ts))
    (hright : ∀ {cs ts}, (∀ c ∈ cs.head?, Token.isInner c = false) → Cuts cs ts →
      Cuts (right ++ cs) (vs ++ ts)) (h : Cuts cs ts) :
    Cuts ('(' :: (left ++ ' ' :: (op ++ ' ' :: (right ++ ')' :: cs))))
      (['('] :: (us ++ op :: (vs ++ [')'] :: ts))) := by
  have hlast := hright (by simp [Token.isInner, Token.isParen]) (h.paren (.inr rfl))
  have hmiddle := (cuts_blank_word hne hop hlast).blank (c := ' ') (by decide)
  exact (hleft (by simp [Token.isInner, Text.isBlank]) hmiddle).paren (.inl rfl)

/-- A printed expression is cut into its words, whatever follows it that is not part of a word. -/
theorem cuts_render {e : TagExpression} (h : e.Printable) {cs : List Char}
    {ts : List (List Char)} (hend : ∀ c ∈ cs.head?, Token.isInner c = false) (hcuts : Cuts cs ts) :
    Cuts (e.render.toList ++ cs) (e.words ++ ts) := by
  induction e generalizing cs ts with
  | always => exact h.elim
  | tag name =>
    simpa [render, words] using Cuts.run (List.cons_ne_nil _ _) h.isInner hend hcuts
  | not inner ih =>
    have hinner := cuts_blank_word (w := "not".toList) (by decide)
      (by simp [Token.isInner, Token.isParen, Text.isBlank]) (ih h hend hcuts)
    simpa [render, words] using hinner
  | and left right ihl ihr =>
    have hjoined := cuts_joined "and".toList (by decide)
      (by simp [Token.isInner, Token.isParen, Text.isBlank]) (ihl h.1) (ihr h.2) hcuts
    simpa [render, words] using hjoined
  | or left right ihl ihr =>
    have hjoined := cuts_joined "or".toList (by decide)
      (by simp [Token.isInner, Token.isParen, Text.isBlank]) (ihl h.1) (ihr h.2) hcuts
    simpa [render, words] using hjoined

theorem derives_words {e : TagExpression} (h : e.Printable) :
    Derives syntaxTrees .unary e.words e := by
  induction e with
  | always => exact h.elim
  | tag name =>
    have htag : Derives syntaxTrees .primary [_] _ := .tag h.isTag
    rw [h.dropSigils_eq] at htag
    simpa [syntaxTrees, words] using Derives.primary htag
  | not inner ih => exact .not (ih h)
  | and left right ihl ihr =>
    exact .primary (.parens (.conjunction (.and (.unary (ihl h.1)) (ihr h.2))))
  | or left right ihl ihr =>
    exact .primary (.parens (.or (.conjunction (.unary (ihl h.1))) (.unary (ihr h.2))))

theorem words_ne_nil {e : TagExpression} (h : e.Printable) : e.words ≠ [] := by
  cases e with
  | always => exact h.elim
  | tag | not | and | or => simp [words]

/-- A printed expression is a tag after `@` or it holds a keyword or a parenthesis. -/
theorem not_commaForm_words {e : TagExpression} (h : e.Printable) : ¬ CommaForm e.words := by
  rintro ⟨hplain, t, ht, hmark⟩
  cases e with
  | always => exact h
  | tag name =>
    obtain rfl := List.mem_singleton.1 ht
    have hcomma : ',' ∉ name.toList := fun hc => (h.chars _ hc).2.2.2 rfl
    simp [hcomma] at hmark
  | not inner => exact (hplain _ List.mem_cons_self).1 (.inr (.inr rfl))
  | and left right => exact (hplain _ List.mem_cons_self).2 rfl
  | or left right => exact (hplain _ List.mem_cons_self).2 rfl

/-- An expression that is empty or built from tags with plain names is read back from its printed
text. -/
theorem parse_render {e : TagExpression} (h : e = always ∨ e.Printable) :
    parse e.render = .ok e := by
  rcases h with rfl | h
  · rfl
  · have hcuts := cuts_render h (by simp) .nil
    rw [List.append_nil, List.append_nil] at hcuts
    rw [parse_eq_ok_iff hcuts (words_ne_nil h) (not_commaForm_words h)]
    exact .conjunction (.unary (derives_words h))

/-- Names that are keywords, look like operators or begin with a sign of the older form. -/
theorem parse_render_words :
    let e := and (not (not (tag "not"))) (or (tag "-x") (or (tag "&&") (and (tag "or") (tag "~"))))
    e.render = "(not not @not and (@-x or (@&& or (@or and @~))))" ∧ parse e.render = .ok e := by
  intro e
  have hplain : ∀ name ∈ ["not", "-x", "&&", "or", "~"], Plain name := by
    intro name hname
    simp only [List.mem_cons, List.not_mem_nil, or_false] at hname
    rcases hname with rfl | rfl | rfl | rfl | rfl <;>
      exact ⟨by decide, by simp [Text.isBlank], by decide⟩
  refine ⟨rfl, parse_render (.inr ?_)⟩
  simp only [e, Printable]
  simp [hplain]

end TagExpression

end Rehearsal
