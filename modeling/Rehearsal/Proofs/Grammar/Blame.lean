import Rehearsal.Proofs.Grammar.Balance

/-!
# The place of a fault

An error names the text that is at fault and the number of characters before it. Every token stands
in the text at its position, and so does every term of a token (`CutsAt.standsIn`,
`mem_splitTerms`).
`Blames` says which token the keyword form blames for which fault. Where a parenthesis is missing
this is the opening one, and the tokens after it close all that they open, so that none of them
closes it (`blames_of_readOperand`, `unclosed_of_balanced`).
-/

namespace Rehearsal

namespace TagExpression

open Token (isInner)

/-- The token stands in the text at its position. -/
def Token.StandsIn (t : Token) (cs : List Char) : Prop :=
  ∃ before after, cs = before ++ (t.text ++ after) ∧ t.position = before.length

/-- There is a comma just before or just after the place. -/
def NextToComma (cs : List Char) (n : Nat) : Prop :=
  ∃ before after, cs = before ++ after ∧ n = before.length ∧
    (before.getLast? = some ',' ∨ after.head? = some ',')

/-- A parenthesis is opened after `n` characters and never closed: no closing one comes after a
balanced text. -/
def Unclosed (cs : List Char) (n : Nat) : Prop :=
  ∃ before after, cs = before ++ '(' :: after ∧ n = before.length ∧
    ∀ inside rest, after = inside ++ ')' :: rest → ¬ Balanced inside

/-- The text is of the kind in which the fault is found. -/
def Fault.IsFoundIn (t : List Char) : Fault → Prop
  | unbalancedClosing => t = [')']
  | missingClosing => t = ['(']
  | expectedClosing | unexpectedToken => t ≠ [')'] ∧ t ≠ "and".toList ∧ t ≠ "or".toList
  | unknownOperator => isOperatorLike t = true ∨ isOperatorLike (termName t) = true
  | unexpectedEnd => t = []
  | operatorForTag => IsKeyword t
  | emptyName => ∀ c ∈ t, c = '@'
  | emptyTerm => ∀ c ∈ termName t, c = '@'

/-! ### Tokens and terms in the text -/

theorem CutsAt.standsIn {n : Nat} {cs : List Char} {toks : List Token} (h : CutsAt n cs toks)
    (before : List Char) (hn : n = before.length) {t : Token} (ht : t ∈ toks) :
    t.StandsIn (before ++ cs) := by
  induction h generalizing before with
  | nil => cases ht
  | @blank n c cs toks hc h ih => simpa using ih (before ++ [c]) (by simp [hn]) ht
  | @paren n c cs toks hc h ih =>
    rcases List.mem_cons.1 ht with rfl | ht
    · exact ⟨before, cs, rfl, hn⟩
    · simpa using ih (before ++ [c]) (by simp [hn]) ht
  | @run n w cs toks hne hw hend h ih =>
    rcases List.mem_cons.1 ht with rfl | ht
    · exact ⟨before, cs, rfl, hn⟩
    · simpa using ih (before ++ w) (by simp [hn]) ht

theorem Cuts.ne_nil {cs t : List Char} {ts : List (List Char)} (h : Cuts cs ts) (ht : t ∈ ts) :
    t ≠ [] := by
  induction h with
  | nil => cases ht
  | blank _ _ ih => exact ih ht
  | paren _ _ ih =>
    rcases List.mem_cons.1 ht with rfl | ht
    · simp
    · exact ih ht
  | run hne _ _ _ ih =>
    rcases List.mem_cons.1 ht with rfl | ht
    · exact hne
    · exact ih ht

/-- The tokens after an opening parenthesis are those of the text after it. -/
theorem CutsAt.exists_after {n : Nat} {cs : List Char} {toks us vs : List Token} {t : Token}
    (h : CutsAt n cs toks) (htoks : toks = us ++ t :: vs) (ht : t.text = ['(']) :
    ∃ before after, cs = before ++ '(' :: after ∧ t.position = n + before.length ∧
      Cuts after (vs.map (·.text)) := by
  induction h generalizing us with
  | nil => simp at htoks
  | @blank n c cs toks hc h ih =>
    obtain ⟨before, after, rfl, hposition, hcuts⟩ := ih htoks
    exact ⟨c :: before, after, rfl, by simp [hposition]; omega, hcuts⟩
  | @paren n c cs toks hc h ih =>
    cases us with
    | nil =>
      obtain ⟨rfl, rfl⟩ := List.cons.inj htoks
      obtain rfl : c = '(' := by simpa using ht
      exact ⟨[], cs, rfl, rfl, h.cuts⟩
    | cons u us =>
      obtain ⟨before, after, rfl, hposition, hcuts⟩ := ih (List.cons.inj htoks).2
      exact ⟨c :: before, after, rfl, by simp [hposition]; omega, hcuts⟩
  | @run n w cs toks hne hw hend h ih =>
    cases us with
    | nil =>
      obtain ⟨rfl, rfl⟩ := List.cons.inj htoks
      obtain rfl : w = ['('] := ht
      cases hw _ List.mem_cons_self
    | cons u us =>
      obtain ⟨before, after, rfl, hposition, hcuts⟩ := ih (List.cons.inj htoks).2
      exact ⟨w ++ before, after, by simp, by simp [hposition, Nat.add_assoc], hcuts⟩

/-- A parenthesis before a balanced text is not closed in it. -/
theorem unclosed_of_balanced {before after : List Char} (h : Balanced after) :
    Unclosed (before ++ '(' :: after) before.length := by
  refine ⟨before, after, rfl, rfl, fun inside rest heq hinside => ?_⟩
  rw [Balanced, heq, openAfter_append, hinside] at h
  cases h

/-- A term is a part of its token between commas. -/
theorem mem_splitTerms {start : Nat} {run cs : List Char} {x : Token}
    (hx : x ∈ splitTerms start run cs) :
    ∃ u v, run.reverse ++ cs = u ++ (x.text ++ v) ∧ x.position = start + u.length ∧
      (u = [] ∨ u.getLast? = some ',') ∧ (v = [] ∨ v.head? = some ',') := by
  induction cs generalizing start run with
  | nil =>
    obtain rfl := List.mem_singleton.1 hx
    exact ⟨[], [], rfl, rfl, .inl rfl, .inl rfl⟩
  | cons c rest ih =>
    rw [splitTerms] at hx
    split at hx
    · rename_i hcomma
      subst hcomma
      rcases List.mem_cons.1 hx with rfl | hx
      · exact ⟨[], ',' :: rest, rfl, rfl, .inl rfl, .inr rfl⟩
      · obtain ⟨u, v, hrest, hposition, hu, hv⟩ := ih hx
        refine ⟨run.reverse ++ ',' :: u, v, by simpa using hrest, ?_, .inr ?_, hv⟩
        · simp [hposition]
          omega
        · rcases hu with rfl | hu
          · simp
          · simp [List.getLast?_cons, hu]
    · obtain ⟨u, v, hrest, hposition, hu, hv⟩ := ih hx
      exact ⟨u, v, by simpa using hrest, hposition, hu, hv⟩

/-! ### The keyword form -/

/-- Which token is blamed for what where the tokens are read inside the open parentheses `outer`,
the innermost first. A parenthesis that is blamed because its partner is missing has after it as
many closing ones as are needed for those opened later. -/
inductive Blames (length : Nat) (outer : List (Token × Level)) (toks : List Token) :
    Misplaced → Prop where
  | atEnd : Blames length outer toks ⟨.unexpectedEnd, ⟨[], length⟩⟩
  | token {fault : Fault} {t : Token} (ht : t ∈ toks) (hfound : fault.IsFoundIn t.text)
      (hfault : fault ≠ .unexpectedEnd ∧ fault ≠ .missingClosing) :
      Blames length outer toks ⟨fault, t⟩
  | around {k : Nat} {opening : Token} {level : Level} (houter : outer[k]? = some (opening, level))
      (hclosed : openAfter ['('] [')'] k (toks.map (·.text)) = some 0) :
      Blames length outer toks ⟨.missingClosing, opening⟩
  | inside {before after : List Token} {opening : Token} (htoks : toks = before ++ opening :: after)
      (hopening : opening.text = ['('])
      (hclosed : openAfter ['('] [')'] 0 (after.map (·.text)) = some 0) :
      Blames length outer toks ⟨.missingClosing, opening⟩

theorem dropSigils_isEmpty_iff_forall {t : List Char} :
    (dropSigils t).isEmpty = true ↔ ∀ c ∈ t, c = '@' := by
  simp only [dropSigils_isEmpty_iff, not_exists, not_and, not_not, ne_eq]

section

variable {length : Nat} {outer : List (Token × Level)} {toks : List Token} {t : Token}
  {m : Misplaced}

theorem Blames.cons (h : Blames length outer toks m) (ht : t.text ≠ ['('] ∧ t.text ≠ [')']) :
    Blames length outer (t :: toks) m := by
  cases h with
  | atEnd => exact .atEnd
  | token hmem hfound hfault => exact .token (List.mem_cons_of_mem _ hmem) hfound hfault
  | around houter hclosed =>
    refine .around houter ?_
    rwa [List.map_cons, openAfter_cons, openWith, if_neg ht.1, if_neg ht.2]
  | @inside before after opening htoks hopening hclosed =>
    have hmore : t :: toks = (t :: before) ++ opening :: after := by rw [htoks, List.cons_append]
    exact .inside hmore hopening hclosed

theorem Blames.opening {level : Level} (h : Blames length ((t, level) :: outer) toks m)
    (ht : t.text = ['(']) : Blames length outer (t :: toks) m := by
  cases h with
  | atEnd => exact .atEnd
  | token hmem hfound hfault => exact .token (List.mem_cons_of_mem _ hmem) hfound hfault
  | @around k opening level houter hclosed =>
    cases k with
    | zero =>
      obtain ⟨rfl, -⟩ := by simpa using houter
      have hfirst : t :: toks = [] ++ t :: toks := rfl
      exact .inside hfirst ht hclosed
    | succ k =>
      refine .around (k := k) (by simpa using houter) ?_
      rwa [List.map_cons, openAfter_cons, openWith, if_pos ht]
  | @inside before after opening htoks hopening hclosed =>
    have hmore : t :: toks = (t :: before) ++ opening :: after := by rw [htoks, List.cons_append]
    exact .inside hmore hopening hclosed

theorem Blames.closing (h : Blames length outer toks m) (ht : t.text = [')'])
    (innermost : Token × Level) : Blames length (innermost :: outer) (t :: toks) m := by
  cases h with
  | atEnd => exact .atEnd
  | token hmem hfound hfault => exact .token (List.mem_cons_of_mem _ hmem) hfound hfault
  | @around k opening level houter hclosed =>
    refine .around (k := k + 1) (by simpa using houter) ?_
    rw [List.map_cons, openAfter_cons, ht]
    exact hclosed
  | @inside before after opening htoks hopening hclosed =>
    have hmore : t :: toks = (t :: before) ++ opening :: after := by rw [htoks, List.cons_append]
    exact .inside hmore hopening hclosed

end

mutual

theorem blames_of_readOperand {length : Nat} {outer : List (Token × Level)} {level : Level}
    {m : Misplaced} : ∀ toks : List Token, readOperand length outer level toks = .error m →
      Blames length outer toks m
  | [], hread => by
    cases hread
    exact .atEnd
  | t :: toks, hread => by
    rw [readOperand] at hread
    split at hread
    · rename_i hnot
      exact (blames_of_readOperand toks hread).cons (by simp [hnot])
    split at hread
    · rename_i hopening
      exact (blames_of_readOperand toks hread).opening hopening
    split at hread
    · rename_i hclosing
      cases hread
      exact .token List.mem_cons_self hclosing (by decide)
    split at hread
    · rename_i hkeyword
      cases hread
      exact .token List.mem_cons_self (isKeyword_iff.1 hkeyword) (by decide)
    split at hread
    · rename_i hoperator
      cases hread
      exact .token List.mem_cons_self (.inl hoperator) (by decide)
    split at hread
    · rename_i hempty
      cases hread
      exact .token List.mem_cons_self (dropSigils_isEmpty_iff_forall.1 hempty) (by decide)
    rename_i hopening hclosing _ _ _
    exact (blames_of_readRest toks hread).cons ⟨hopening, hclosing⟩

theorem blames_of_readRest {length : Nat} {outer : List (Token × Level)} {level : Level}
    {c : TagExpression} {m : Misplaced} :
    ∀ toks : List Token, readRest length outer level c toks = .error m →
      Blames length outer toks m
  | [], hread => by
    cases outer with
    | nil => cases hread
    | cons innermost outer =>
      cases hread
      exact .around (k := 0) rfl rfl
  | t :: toks, hread => by
    rw [readRest.eq_def] at hread
    dsimp only at hread
    split at hread
    · rename_i hand
      exact (blames_of_readOperand toks hread).cons (by simp [hand])
    split at hread
    · rename_i hor
      exact (blames_of_readOperand toks hread).cons (by simp [hor])
    rename_i hand hor
    cases outer with
    | nil =>
      dsimp only at hread
      split at hread
      · rename_i hclosing
        cases hread
        exact .token List.mem_cons_self hclosing (by decide)
      · rename_i hclosing
        split at hread
        · rename_i hoperator
          cases hread
          exact .token List.mem_cons_self (.inl hoperator) (by decide)
        · cases hread
          exact .token List.mem_cons_self ⟨hclosing, hand, hor⟩ (by decide)
    | cons innermost outer =>
      dsimp only at hread
      split at hread
      · rename_i hclosing
        exact (blames_of_readRest toks hread).closing hclosing innermost
      · rename_i hclosing
        cases hread
        exact .token List.mem_cons_self ⟨hclosing, hand, hor⟩ (by decide)

end

/-! ### The older form -/

theorem token_of_readTerm {t : Token} {m : Misplaced} (h : readTerm t = .error m) :
    m.token = t ∧ m.fault.IsFoundIn t.text ∧
      (m.fault = .emptyTerm ∨ m.fault = .unknownOperator ∧ t.text ≠ []) := by
  rw [readTerm_eq] at h
  split_ifs at h with hempty hoperator
  · cases h
    exact ⟨rfl, dropSigils_isEmpty_iff_forall.1 hempty, .inl rfl⟩
  · cases h
    refine ⟨rfl, .inr hoperator, .inr ⟨rfl, fun hnil => ?_⟩⟩
    rw [hnil] at hempty
    exact hempty rfl

theorem exists_of_readTerms {left : Option TagExpression} {toks : List Token} {m : Misplaced}
    (h : readTerms left toks = .error m) : ∃ t ∈ toks, readTerm t = .error m := by
  induction toks generalizing left with
  | nil => cases h
  | cons t rest ih =>
    rw [readTerms] at h
    cases hterm : readTerm t with
    | error m' =>
      rw [hterm] at h
      cases h
      exact ⟨t, List.mem_cons_self, hterm⟩
    | ok e =>
      rw [hterm] at h
      obtain ⟨x, hx, herror⟩ := ih h
      exact ⟨x, List.mem_cons_of_mem _ hx, herror⟩

theorem exists_of_readGroups {left : Option TagExpression} {toks : List Token} {m : Misplaced}
    (h : readGroups left toks = .error m) :
    ∃ t ∈ toks, ∃ x ∈ splitTerms t.position [] t.text, readTerm x = .error m := by
  induction toks generalizing left with
  | nil => cases h
  | cons t rest ih =>
    rw [readGroups] at h
    cases hgroup : readTerms none (splitTerms t.position [] t.text) with
    | error m' =>
      rw [hgroup] at h
      cases h
      exact ⟨t, List.mem_cons_self, exists_of_readTerms hgroup⟩
    | ok group =>
      rw [hgroup] at h
      have hrest : ∃ left', readGroups left' rest = .error m := by
        cases group with
        | none => exact ⟨_, h⟩
        | some e => exact ⟨_, h⟩
      obtain ⟨left', hrest⟩ := hrest
      obtain ⟨u, hu, hx⟩ := ih hrest
      exact ⟨u, List.mem_cons_of_mem _ hu, hx⟩

/-! ### The place of a fault -/

/-- What is blamed stands in the text and has the fault. Nothing is blamed at the end of the text
where it ends too early, and else only where a term is missing, next to a comma; and an opening
parenthesis is blamed for a missing one only if it is never closed. -/
structure Misplaced.PointsInto (m : Misplaced) (cs : List Char) : Prop where
  stands : m.token.StandsIn cs
  found : m.fault.IsFoundIn m.token.text
  atEnd : m.fault = .unexpectedEnd → m.token = ⟨[], cs.length⟩
  empty : m.token.text = [] → m.fault = .unexpectedEnd ∨
    m.fault = .emptyTerm ∧ NextToComma cs m.token.position
  unclosed : m.fault = .missingClosing → Unclosed cs m.token.position

theorem Blames.pointsInto {cs : List Char} {m : Misplaced}
    (h : Blames cs.length [] (Token.all cs) m) : m.PointsInto cs := by
  have hstands : ∀ {t}, t ∈ Token.all cs → t.StandsIn cs := fun ht =>
    (cutsAt_all cs).standsIn [] rfl ht
  cases h with
  | atEnd =>
    exact ⟨⟨cs, [], by simp, rfl⟩, rfl, fun _ => rfl, fun _ => .inl rfl,
      fun hfault => by cases hfault⟩
  | token ht hfound hfault =>
    exact ⟨hstands ht, hfound, fun heq => absurd heq hfault.1,
      fun hnil => absurd hnil ((cutsAt_all cs).cuts.ne_nil (List.mem_map_of_mem ht)),
      fun heq => absurd heq hfault.2⟩
  | around houter => simp at houter
  | @inside before after opening htoks hopening hclosed =>
    obtain ⟨pre, post, hcs, hposition, hcuts⟩ := (cutsAt_all cs).exists_after htoks hopening
    rw [← hcuts.openAfter_eq] at hclosed
    refine ⟨hstands (by simp [htoks]), hopening, fun heq => (by cases heq), fun hnil => ?_,
      fun _ => ?_⟩
    · rw [hopening] at hnil
      cases hnil
    · rw [hcs, hposition, Nat.zero_add]
      exact unclosed_of_balanced hclosed

theorem pointsInto_of_readTerm {cs : List Char} {t x : Token} {m : Misplaced}
    (ht : t ∈ Token.all cs) (hx : x ∈ splitTerms t.position [] t.text)
    (h : readTerm x = .error m) : m.PointsInto cs := by
  obtain ⟨before, after, hcs, hbefore⟩ := (cutsAt_all cs).standsIn [] rfl ht
  obtain ⟨u, v, htext, hposition, hu, hv⟩ := mem_splitTerms hx
  rw [List.reverse_nil, List.nil_append] at htext
  have hword : t.text ≠ [] := (cutsAt_all cs).cuts.ne_nil (List.mem_map_of_mem ht)
  have hplace : cs = (before ++ u) ++ (x.text ++ (v ++ after)) := by
    simpa [htext] using hcs
  have hlength : x.position = (before ++ u).length := by
    rw [hposition, hbefore, List.length_append]
  obtain ⟨rfl, hfound, hfault⟩ := token_of_readTerm h
  refine ⟨⟨_, _, hplace, hlength⟩, hfound, fun heq => ?_, fun hnil => ?_, fun heq => ?_⟩
  · rcases hfault with hfault | ⟨hfault, -⟩ <;>
    · rw [hfault] at heq
      cases heq
  · rcases hfault with hfault | ⟨-, hne⟩
    · refine .inr ⟨hfault, before ++ u, v ++ after, by simpa [hnil] using hplace, hlength, ?_⟩
      -- an empty part of a word that is not empty has a comma beside it
      have hcomma : u.getLast? = some ',' ∨ v.head? = some ',' := by
        rcases hu with rfl | hu
        · rcases hv with rfl | hv
          · exact absurd (by simpa [hnil] using htext) hword
          · exact .inr hv
        · exact .inl hu
      rcases hcomma with hu | hv
      · exact .inl (by simp [hu])
      · exact .inr (by simp [hv])
    · exact absurd hnil hne
  · rcases hfault with hfault | ⟨hfault, -⟩ <;>
    · rw [hfault] at heq
      cases heq

theorem pointsInto_of_readTokens {cs : List Char} {m : Misplaced}
    (h : readTokens cs.length (Token.all cs) = .error m) : m.PointsInto cs := by
  rw [readTokens] at h
  split_ifs at h
  · cases hgroups : readGroups none (Token.all cs) with
    | ok e =>
      rw [hgroups] at h
      cases h
    | error m' =>
      rw [hgroups] at h
      cases h
      obtain ⟨t, ht, x, hx, hterm⟩ := exists_of_readGroups hgroups
      exact pointsInto_of_readTerm ht hx hterm
  · exact (blames_of_readOperand _ h).pointsInto

/-- The position of an error lies in the text, and its token is what stands there and has the fault.
The token is empty only at the end of a text that ends too early and next to a comma where a term
is missing, and an opening parenthesis whose partner is said to be missing has none. -/
theorem error_points_into {s : String} {err : Error} (h : parse s = .error err) :
    err.expression = s ∧ err.position ≤ s.length ∧
      err.token.toList = (s.toList.drop err.position).take err.token.length ∧
      err.fault.IsFoundIn err.token.toList ∧
      (err.fault = .unexpectedEnd → err.token = "" ∧ err.position = s.length) ∧
      (err.token = "" → err.fault = .unexpectedEnd ∨
        err.fault = .emptyTerm ∧ NextToComma s.toList err.position) ∧
      (err.fault = .missingClosing → err.token = "(" ∧ Unclosed s.toList err.position) := by
  rw [parse, ← String.length_toList] at h
  split at h
  · cases h
  · rename_i m hread
    cases h
    obtain ⟨⟨before, after, hcs, hposition⟩, hfound, hend, hempty, hunclosed⟩ :=
      pointsInto_of_readTokens hread
    refine ⟨rfl, ?_, ?_, by simpa using hfound, fun hfault => ?_, fun htoken => hempty ?_,
      fun hfault => ?_⟩
    · rw [← String.length_toList, hcs, hposition]
      simp
    · rw [hcs, hposition]
      simp
    · simp [hend hfault, String.length_toList]
    · simpa using htoken
    · have hclosing : m.fault = .missingClosing := hfault
      rw [hclosing] at hfound
      exact ⟨congrArg String.ofList hfound, hunclosed hclosing⟩

/-- After a character of several bytes, the outer one of two parentheses is never closed. -/
theorem error_points_into_unclosed :
    parse "é and ((b)" = .error ⟨"é and ((b)", .missingClosing, "(", 6⟩ ∧
      "(".toList = ("é and ((b)".toList.drop 6).take 1 ∧ Unclosed "é and ((b)".toList 6 := by
  have hparse : parse "é and ((b)" = .error ⟨"é and ((b)", .missingClosing, "(", 6⟩ := by decide
  obtain ⟨-, -, htoken, -, -, -, hunclosed⟩ := error_points_into hparse
  exact ⟨hparse, htoken, (hunclosed rfl).2⟩

end TagExpression

end Rehearsal
