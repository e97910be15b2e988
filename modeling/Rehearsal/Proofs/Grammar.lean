import Mathlib.Data.List.TakeWhile
import Rehearsal.Proofs.Grammar.Tokens

/-!
# The grammar of tag expressions

```text
expr    := or
or      := and ("or" and)*
and     := unary ("and" unary)*
unary   := "not" unary | primary
primary := "(" expr ")" | TAG
```

`Derives I rank ts a` says that the words `ts` derive from the grammar at a rank, and that the
derivation means `a` when the words are read by `I`: as a tree of the syntax, or as a truth value
on some tags. The left sides of `and` and `or` go first, so both are left-associative.

The reader goes over the words once. What it does with the words of a derivation is what it would
do with a tag in their place (`Derives.readOperand`), so it reads every list of words that has a
derivation. Conversely the words to the left of the next operand are always those that the levels
stand for (`Opened`, `Level.Stands`), and when the reader comes to an end they make a derivation
(`derives_of_readOperand`).
-/

namespace Rehearsal

namespace TagExpression

/-! ### The grammar -/

structure IsTag (t : List Char) : Prop where
  noParen : t ≠ ['('] ∧ t ≠ [')']
  noKeyword : ¬ IsKeyword t
  noOperator : isOperatorLike t = false
  named : ∃ c ∈ t, c ≠ '@'

/-- What the tags and the connectives mean. -/
structure Interpretation (α : Type) where
  tag : List Char → α
  not : α → α
  and : α → α → α
  or : α → α → α

def syntaxTrees : Interpretation TagExpression :=
  ⟨fun name => .tag (String.ofList name), .not, .and, .or⟩

/-- The truth values on written tags: a tag is true if one of them has its name, where leading `@`
do not count. -/
def truthOn (tags : List String) : Interpretation Prop :=
  ⟨fun name => ∃ t ∈ tags, dropSigils t.toList = name, Not, And, Or⟩

inductive Rank where
  | or
  | and
  | unary
  | primary

inductive Derives {α : Type} (I : Interpretation α) : Rank → List (List Char) → α → Prop where
  | tag {t : List Char} (h : IsTag t) : Derives I .primary [t] (I.tag (dropSigils t))
  | parens {ts : List (List Char)} {a : α} (h : Derives I .or ts a) :
      Derives I .primary (['('] :: ts ++ [[')']]) a
  | primary {ts : List (List Char)} {a : α} (h : Derives I .primary ts a) : Derives I .unary ts a
  | not {ts : List (List Char)} {a : α} (h : Derives I .unary ts a) :
      Derives I .unary ("not".toList :: ts) (I.not a)
  | unary {ts : List (List Char)} {a : α} (h : Derives I .unary ts a) : Derives I .and ts a
  | and {ts us : List (List Char)} {a b : α} (h : Derives I .and ts a)
      (h' : Derives I .unary us b) : Derives I .and (ts ++ "and".toList :: us) (I.and a b)
  | conjunction {ts : List (List Char)} {a : α} (h : Derives I .and ts a) : Derives I .or ts a
  | or {ts us : List (List Char)} {a b : α} (h : Derives I .or ts a) (h' : Derives I .and us b) :
      Derives I .or (ts ++ "or".toList :: us) (I.or a b)

variable {rank : Rank} {ts : List (List Char)} {e : TagExpression} {tags : List String}

/-- A derivation has the truth value of its tree. -/
theorem Derives.truth (h : Derives syntaxTrees rank ts e) :
    Derives (truthOn tags) rank ts (e.holds tags = true) := by
  induction h with
  | @tag t ht =>
    have hmeaning : (truthOn tags).tag (dropSigils t) =
        ((syntaxTrees.tag (dropSigils t)).holds tags = true) := by
      simp [truthOn, syntaxTrees, holds, isTagged_iff]
    exact hmeaning ▸ .tag ht
  | parens h ih => exact .parens ih
  | primary h ih => exact .primary ih
  | @not ts a h ih =>
    have hmeaning : (truthOn tags).not (a.holds tags = true) = ((a.not).holds tags = true) := by
      simp [truthOn, holds]
    exact hmeaning ▸ .not ih
  | unary h ih => exact .unary ih
  | @and ts us a b h h' ih ih' =>
    have hmeaning : (truthOn tags).and (a.holds tags = true) (b.holds tags = true) =
        ((a.and b).holds tags = true) := by
      simp [truthOn, holds]
    exact hmeaning ▸ .and ih ih'
  | conjunction h ih => exact .conjunction ih
  | @or ts us a b h h' ih ih' =>
    have hmeaning : (truthOn tags).or (a.holds tags = true) (b.holds tags = true) =
        ((a.or b).holds tags = true) := by
      simp [truthOn, holds]
    exact hmeaning ▸ .or ih ih'

/-- Every derivation has a tree, and its truth value. -/
theorem Derives.exists_tree {p : Prop} (h : Derives (truthOn tags) rank ts p) :
    ∃ e, Derives syntaxTrees rank ts e ∧ p = (e.holds tags = true) := by
  induction h with
  | @tag t ht =>
    exact ⟨_, .tag ht, by simp [truthOn, syntaxTrees, holds, isTagged_iff]⟩
  | parens h ih =>
    obtain ⟨e, he, rfl⟩ := ih
    exact ⟨e, .parens he, rfl⟩
  | primary h ih =>
    obtain ⟨e, he, rfl⟩ := ih
    exact ⟨e, .primary he, rfl⟩
  | not h ih =>
    obtain ⟨e, he, rfl⟩ := ih
    exact ⟨_, .not he, by simp [truthOn, syntaxTrees, holds]⟩
  | unary h ih =>
    obtain ⟨e, he, rfl⟩ := ih
    exact ⟨e, .unary he, rfl⟩
  | and h h' ih ih' =>
    obtain ⟨e, he, rfl⟩ := ih
    obtain ⟨f, hf, rfl⟩ := ih'
    exact ⟨_, .and he hf, by simp [truthOn, syntaxTrees, holds]⟩
  | conjunction h ih =>
    obtain ⟨e, he, rfl⟩ := ih
    exact ⟨e, .conjunction he, rfl⟩
  | or h h' ih ih' =>
    obtain ⟨e, he, rfl⟩ := ih
    obtain ⟨f, hf, rfl⟩ := ih'
    exact ⟨_, .or he hf, by simp [truthOn, syntaxTrees, holds]⟩

/-! ### What has a derivation is read -/

/-- Of the level only the alternatives matter once an operand was read. -/
theorem readRest_congr {level level' : Level} (h : level.alternatives = level'.alternatives)
    (length : Nat) (outer : List (Token × Level)) (c : TagExpression) (toks : List Token) :
    readRest length outer level c toks = readRest length outer level' c toks := by
  cases toks <;> simp only [readRest, Level.disjoin, h]

section

variable {length : Nat} {outer : List (Token × Level)} {level : Level} {c : TagExpression}
  {t : Token} {toks : List Token}

theorem readRest_and (h : t.text = "and".toList) : readRest length outer level c (t :: toks) =
    readOperand length outer ⟨level.alternatives, some c, 0⟩ toks := by
  rw [readRest.eq_def]
  exact if_pos h

theorem readRest_or (h : t.text = "or".toList) : readRest length outer level c (t :: toks) =
    readOperand length outer ⟨some (level.disjoin c), none, 0⟩ toks := by
  rw [readRest.eq_def]
  simp [h]

theorem readRest_closing (h : t.text = [')']) (opening : Token) (around : Level) :
    readRest length ((opening, around) :: outer) level c (t :: toks) =
      readRest length outer around (around.conjoin (level.disjoin c)) toks := by
  rw [readRest.eq_def]
  simp [h]

end

theorem negate_not (n : Nat) (e : TagExpression) : negate n (.not e) = negate (n + 1) e := by
  induction n with
  | zero => rfl
  | succ n ih => exact congrArg TagExpression.not ih

theorem dropSigils_isEmpty_iff {t : List Char} :
    (dropSigils t).isEmpty = true ↔ ¬ ∃ c ∈ t, c ≠ '@' := by
  simp [dropSigils, List.dropWhile_eq_nil_iff]

/-- The words of a unary are read like a tag in their place; those of an `and` or `or` are read to
their end, where nothing stands to the left. -/
def Rank.Reads (e : TagExpression) (toks : List Token) : Rank → Prop
  | .or => ∃ level c, level.disjoin c = e ∧ ∀ length outer rest,
      readOperand length outer .start (toks ++ rest) = readRest length outer level c rest
  | .and => ∀ length outer alternatives rest,
      readOperand length outer ⟨alternatives, none, 0⟩ (toks ++ rest) =
        readRest length outer ⟨alternatives, none, 0⟩ e rest
  | .unary | .primary => ∀ length outer level rest,
      readOperand length outer level (toks ++ rest) =
        readRest length outer level (level.conjoin e) rest

theorem Derives.reads (h : Derives syntaxTrees rank ts e) {toks : List Token}
    (htoks : toks.map (·.text) = ts) : rank.Reads e toks := by
  induction h generalizing toks with
  | @tag t ht =>
    obtain ⟨tok, rfl, rfl⟩ := List.map_eq_singleton_iff.1 htoks
    intro length outer level rest
    have hkeyword : isKeyword tok.text = false := by
      rw [Bool.eq_false_iff, ne_eq, isKeyword_iff]
      exact ht.noKeyword
    have hnot : tok.text ≠ "not".toList := fun heq => ht.noKeyword (.inr (.inr heq))
    have hnamed : ¬ (dropSigils tok.text).isEmpty = true := by
      rw [dropSigils_isEmpty_iff, not_not]
      exact ht.named
    rw [List.singleton_append, readOperand, if_neg hnot, if_neg ht.noParen.1, if_neg ht.noParen.2,
      hkeyword, ht.noOperator, if_neg Bool.false_ne_true, if_neg Bool.false_ne_true, if_neg hnamed]
    rfl
  | parens h ih =>
    obtain ⟨opening, toks, rfl, hopening, hrest⟩ := List.map_eq_cons_iff.1 htoks
    obtain ⟨inside, last, rfl, hinside, hlast⟩ := List.map_eq_append_iff.1 hrest
    obtain ⟨closing, rfl, hclosing⟩ := List.map_eq_singleton_iff.1 hlast
    obtain ⟨inner, c, rfl, hread⟩ := ih hinside
    intro length outer level rest
    rw [List.cons_append, List.append_assoc, readOperand, if_neg (by simp [hopening]),
      if_pos hopening, hread, List.singleton_append, readRest_closing hclosing]
  | primary h ih => exact ih htoks
  | not h ih =>
    obtain ⟨tok, toks, rfl, htext, hrest⟩ := List.map_eq_cons_iff.1 htoks
    intro length outer level rest
    rw [List.cons_append, readOperand, if_pos htext, ih hrest]
    simp only [Level.conjoin, syntaxTrees, negate_not]
    refine readRest_congr ?_ ..
    rfl
  | unary h ih =>
    intro length outer alternatives rest
    exact ih htoks length outer _ rest
  | and h h' ih ih' =>
    obtain ⟨left, right, rfl, hleft, hright⟩ := List.map_eq_append_iff.1 htoks
    obtain ⟨tok, right, rfl, htext, hright⟩ := List.map_eq_cons_iff.1 hright
    intro length outer alternatives rest
    rw [List.append_assoc, ih hleft, List.cons_append, readRest_and htext, ih' hright]
    refine readRest_congr ?_ ..
    rfl
  | conjunction h ih => exact ⟨.start, _, rfl, fun length outer rest => ih htoks ..⟩
  | or h h' ih ih' =>
    obtain ⟨left, right, rfl, hleft, hright⟩ := List.map_eq_append_iff.1 htoks
    obtain ⟨tok, right, rfl, htext, hright⟩ := List.map_eq_cons_iff.1 hright
    obtain ⟨level, c, rfl, hread⟩ := ih hleft
    refine ⟨⟨some (level.disjoin c), none, 0⟩, _, rfl, fun length outer rest => ?_⟩
    rw [List.append_assoc, hread, List.cons_append, readRest_or htext, ih' hright]

/-- A list of words that has a derivation is read as its tree. -/
theorem Derives.readOperand (h : Derives syntaxTrees .or ts e) {toks : List Token}
    (htoks : toks.map (·.text) = ts) (length : Nat) :
    readOperand length [] .start toks = .ok e := by
  obtain ⟨level, c, rfl, hread⟩ := h.reads htoks
  have hend := hread length [] []
  rwa [List.append_nil, readRest] at hend

/-! ### What is read has a derivation -/

/-- The words of a left side that may be missing, with the connective after them. -/
inductive Awaits (rank : Rank) (connective : String) :
    Option TagExpression → List (List Char) → Prop where
  | none : Awaits rank connective none []
  | some {left : TagExpression} {ts : List (List Char)} (h : Derives syntaxTrees rank ts left) :
      Awaits rank connective (some left) (ts ++ [connective.toList])

/-- The words stand to the left of the next operand inside one pair of parentheses. -/
def Level.Stands (level : Level) (ts : List (List Char)) : Prop :=
  ∃ as cs, Awaits .or "or" level.alternatives as ∧ Awaits .and "and" level.conjunction cs ∧
    ts = as ++ cs ++ List.replicate level.negations "not".toList

theorem Level.stands_start : Level.start.Stands [] := ⟨[], [], .none, .none, rfl⟩

/-- The words up to the innermost open parenthesis. -/
inductive Opened : List (Token × Level) → List (List Char) → Prop where
  | nil : Opened [] []
  | cons {opening : Token} {level : Level} {outer : List (Token × Level)}
      {before ts : List (List Char)} (h : Opened outer before) (hlevel : level.Stands ts) :
      Opened ((opening, level) :: outer) (before ++ ts ++ [['(']])

theorem derives_negate (n : Nat) (h : Derives syntaxTrees .unary ts e) :
    Derives syntaxTrees .unary (List.replicate n "not".toList ++ ts) (negate n e) := by
  induction n with
  | zero => exact h
  | succ n ih =>
    rw [List.replicate_succ, List.cons_append]
    exact .not ih

/-- A level and the next operand make up a conjunction after the alternatives. -/
theorem Level.Stands.conjoin {level : Level} {us : List (List Char)} (hlevel : level.Stands us)
    (h : Derives syntaxTrees .unary ts e) : ∃ as cs, Awaits .or "or" level.alternatives as ∧
      Derives syntaxTrees .and cs (level.conjoin e) ∧ us ++ ts = as ++ cs := by
  obtain ⟨alternatives, conjunction, n⟩ := level
  obtain ⟨as, cs, has, hcs, rfl⟩ := hlevel
  have hoperand := derives_negate n h
  refine ⟨as, cs ++ (List.replicate n "not".toList ++ ts), has, ?_, by simp⟩
  rw [Level.conjoin]
  cases hcs with
  | none => exact .unary hoperand
  | some hleft =>
    rw [List.append_assoc]
    exact .and hleft hoperand

/-- The alternatives and the next conjunction make up an `or`. -/
theorem Awaits.disjoin {level : Level} {as cs : List (List Char)}
    (has : Awaits .or "or" level.alternatives as) (h : Derives syntaxTrees .and cs e) :
    Derives syntaxTrees .or (as ++ cs) (level.disjoin e) := by
  obtain ⟨alternatives, conjunction, n⟩ := level
  rw [Level.disjoin]
  cases has with
  | none => exact .conjunction h
  | some hleft =>
    rw [List.append_assoc]
    exact .or hleft h

mutual

theorem derives_of_readOperand {length : Nat} {outer : List (Token × Level)} {level : Level}
    {before ts : List (List Char)} (hopened : Opened outer before) (hlevel : level.Stands ts) :
    ∀ toks : List Token, readOperand length outer level toks = .ok e →
      Derives syntaxTrees .or (before ++ ts ++ toks.map (·.text)) e
  | [], hread => by cases hread
  | t :: toks, hread => by
    rw [readOperand] at hread
    split at hread
    · rename_i hnot
      have hmore : Level.Stands { level with negations := level.negations + 1 }
          (ts ++ ["not".toList]) := by
        obtain ⟨as, cs, has, hcs, rfl⟩ := hlevel
        exact ⟨as, cs, has, hcs, by simp [List.replicate_succ']⟩
      simpa [hnot] using derives_of_readOperand hopened hmore toks hread
    split at hread
    · rename_i hopening
      simpa [hopening] using
        derives_of_readOperand (hopened.cons hlevel) Level.stands_start toks hread
    split at hread
    · cases hread
    split at hread
    · cases hread
    split at hread
    · cases hread
    split at hread
    · cases hread
    rename_i hopening hclosing hkeyword hoperator hnamed
    have htag : IsTag t.text := by
      rw [dropSigils_isEmpty_iff, not_not] at hnamed
      exact ⟨⟨hopening, hclosing⟩, fun hk => hkeyword (isKeyword_iff.2 hk),
        by simpa using hoperator, hnamed⟩
    obtain ⟨as, cs, has, hcs, heq⟩ := hlevel.conjoin (.primary (.tag htag))
    have hrest := derives_of_readRest hopened has hcs toks hread
    rw [List.append_assoc before, ← heq] at hrest
    simpa using hrest

theorem derives_of_readRest {length : Nat} {outer : List (Token × Level)} {level : Level}
    {c : TagExpression} {before as cs : List (List Char)} (hopened : Opened outer before)
    (has : Awaits .or "or" level.alternatives as) (hcs : Derives syntaxTrees .and cs c) :
    ∀ toks : List Token, readRest length outer level c toks = .ok e →
      Derives syntaxTrees .or (before ++ as ++ cs ++ toks.map (·.text)) e
  | [], hread => by
    cases hopened with
    | nil =>
      rw [readRest] at hread
      cases hread
      simpa using has.disjoin hcs
    | cons h hlevel =>
      rw [readRest] at hread
      cases hread
  | t :: toks, hread => by
    rw [readRest.eq_def] at hread
    dsimp only at hread
    split at hread
    · rename_i hand
      have hmore : Level.Stands ⟨level.alternatives, some c, 0⟩ (as ++ (cs ++ ["and".toList])) :=
        ⟨as, _, has, .some hcs, by simp⟩
      simpa [hand] using derives_of_readOperand hopened hmore toks hread
    split at hread
    · rename_i hor
      have hmore : Level.Stands ⟨some (level.disjoin c), none, 0⟩ (as ++ cs ++ ["or".toList]) :=
        ⟨_, [], .some (has.disjoin hcs), .none, by simp⟩
      simpa [hor] using derives_of_readOperand hopened hmore toks hread
    cases hopened with
    | nil =>
      dsimp only at hread
      split at hread
      · cases hread
      · split at hread <;> cases hread
    | cons h hlevel =>
      dsimp only at hread
      split at hread
      · rename_i hclosing
        obtain ⟨as', cs', has', hcs', heq⟩ :=
          hlevel.conjoin (.primary (.parens (has.disjoin hcs)))
        have hrest := derives_of_readRest h has' hcs' toks hread
        rw [List.append_assoc _ as', ← heq] at hrest
        simpa [hclosing] using hrest
      · cases hread

end

theorem readOperand_eq_ok_iff (length : Nat) {toks : List Token} :
    readOperand length [] .start toks = .ok e ↔
      Derives syntaxTrees .or (toks.map (·.text)) e := by
  refine ⟨fun h => ?_, fun h => h.readOperand rfl length⟩
  simpa using derives_of_readOperand .nil Level.stands_start toks h

theorem parse_eq_ok_iff {s : String} (hcuts : Cuts s.toList ts) (hne : ts ≠ [])
    (hform : ¬ CommaForm ts) : parse s = .ok e ↔ Derives syntaxTrees .or ts e := by
  obtain rfl := map_text_all_eq_iff.2 hcuts
  have hempty : (Token.all s.toList).isEmpty = false := by simpa using hne
  rw [← isCommaForm_iff] at hform
  rw [parse, readTokens, hempty, if_neg Bool.false_ne_true, if_neg hform,
    ← readOperand_eq_ok_iff s.length]
  split
  · rename_i hread
    rw [hread]
    simp
  · rename_i hread
    rw [hread]
    simp

/-- Only the set of the names is seen, however the tags are listed. -/
theorem holds_eq_of_names {tags tags' : List String}
    (hnames : ∀ name, (∃ t ∈ tags, dropSigils t.toList = name) ↔
      ∃ t ∈ tags', dropSigils t.toList = name) (e : TagExpression) :
    e.holds tags = e.holds tags' := by
  induction e with
  | always => rfl
  | tag name =>
    rw [holds, holds, Bool.eq_iff_iff, isTagged_iff, isTagged_iff]
    exact hnames name.toList
  | not inner ih => rw [holds, holds, ih]
  | and left right ihl ihr => rw [holds, holds, ihl, ihr]
  | or left right ihl ihr => rw [holds, holds, ihl, ihr]

/-- If the words of a text are not in the older form, the text is read if and only if they derive
from the grammar, and the expression is the tree of the derivation, of which there is no other. On
any tags it has the truth value of the derivation, which depends only on the set of their names. -/
theorem parse_follows_grammar {s : String} {ts : List (List Char)} (hcuts : Cuts s.toList ts)
    (hne : ts ≠ []) (hform : ¬ CommaForm ts) :
    ((∃ e, parse s = .ok e) ↔ ∃ e, Derives syntaxTrees .or ts e) ∧
      ∀ e, parse s = .ok e →
        (∀ e', Derives syntaxTrees .or ts e' ↔ e' = e) ∧
        (∀ tags p, Derives (truthOn tags) .or ts p ↔ p = (e.holds tags = true)) ∧
        ∀ tags tags', (∀ name, (∃ t ∈ tags, dropSigils t.toList = name) ↔
          ∃ t ∈ tags', dropSigils t.toList = name) → e.holds tags = e.holds tags' := by
  refine ⟨exists_congr fun e => parse_eq_ok_iff hcuts hne hform, fun e he => ?_⟩
  have htrees : ∀ e', Derives syntaxTrees .or ts e' ↔ e' = e := by
    intro e'
    rw [← parse_eq_ok_iff hcuts hne hform, he, Except.ok.injEq, eq_comm]
  refine ⟨htrees, fun tags p => ⟨fun hp => ?_, ?_⟩, fun tags tags' hnames =>
    holds_eq_of_names hnames e⟩
  · obtain ⟨e', he', rfl⟩ := hp.exists_tree
    rw [(htrees e').1 he']
  · rintro rfl
    exact ((htrees e).2 rfl).truth

/-- Every connective at once: `not` binds tighter than `and`, and `and` tighter than `or`. -/
theorem parse_follows_grammar_mixed :
    let ts := ["not", "@a", "or", "b", "and", "(", "c", "or", "@d", ")"].map String.toList
    let e := or (not (tag "a")) (and (tag "b") (or (tag "c") (tag "d")))
    Cuts "not @a or b and (c or @d)".toList ts ∧ ¬ CommaForm ts ∧
      parse "not @a or b and (c or @d)" = .ok e ∧ Derives syntaxTrees .or ts e ∧
      Derives (truthOn ["@a", "@@b", "d"]) .or ts (e.holds ["@a", "@@b", "d"] = true) := by
  intro ts e
  have hcuts : Cuts "not @a or b and (c or @d)".toList ts := map_text_all_eq_iff.1 (by decide)
  have hform : ¬ CommaForm ts := fun h => (h.1 ['('] (by decide)).2 rfl
  have hparse : parse "not @a or b and (c or @d)" = .ok e := by decide
  obtain ⟨htrees, htruth, -⟩ := (parse_follows_grammar hcuts (by decide) hform).2 e hparse
  exact ⟨hcuts, hform, hparse, (htrees e).2 rfl, (htruth _ _).2 rfl⟩

end TagExpression

end Rehearsal
