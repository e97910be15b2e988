import Mathlib.Data.List.TakeWhile
import Rehearsal.Proofs.Pattern.Reading

/-!
# What is read does not depend on what follows

Outside verbose mode what is read to its end, be it a name, an escape, a set of characters or a
repetition, is read in the same way when closing parentheses and dollar signs follow. These are
left as they are (`PassesOn`): nothing that may go on goes on with one of them. Each reader has a
lemma of its own that says so.
-/

namespace Rehearsal

namespace Regex

namespace Reader

/-- Nothing but closing parentheses and dollar signs. -/
def IsInert (tail : List Char) : Prop := ∀ c ∈ tail, c = ')' ∨ c = '$'

/-- A reader that succeeds also does so with the tail behind its text, which it leaves. -/
def PassesOn {α : Type} (tail : List Char) (read : List Char → Option (α × List Char)) : Prop :=
  ∀ ⦃cs a rest⦄, read cs = some (a, rest) → read (cs ++ tail) = some (a, rest ++ tail)

variable {tail cs rest : List Char}

theorem IsInert.head? (h : IsInert tail) :
    tail = [] ∨ ∃ more, tail = ')' :: more ∨ tail = '$' :: more := by
  cases tail with
  | nil => exact .inl rfl
  | cons c more =>
    rcases h c List.mem_cons_self with rfl | rfl
    · exact .inr ⟨more, .inl rfl⟩
    · exact .inr ⟨more, .inr rfl⟩

theorem IsInert.dropWhile_append (h : IsInert tail) {p : Char → Bool} (hp : p ')' = false)
    (hp' : p '$' = false) (cs : List Char) : (cs ++ tail).dropWhile p = cs.dropWhile p ++ tail := by
  induction cs with
  | nil =>
    obtain rfl | ⟨more, rfl | rfl⟩ := h.head?
    · rfl
    · simp [hp]
    · simp [hp']
  | cons c cs ih =>
    cases hc : p c <;> simp [hc, ih]

theorem IsInert.takeWhile_append (h : IsInert tail) {p : Char → Bool} (hp : p ')' = false)
    (hp' : p '$' = false) (cs : List Char) : (cs ++ tail).takeWhile p = cs.takeWhile p := by
  induction cs with
  | nil =>
    obtain rfl | ⟨more, rfl | rfl⟩ := h.head?
    · rfl
    · simp [hp]
    · simp [hp']
  | cons c cs ih =>
    cases hc : p c <;> simp [hc, ih]

theorem PassesOn.filterMap {α β : Type} {read : List Char → Option (α × List Char)}
    (h : PassesOn tail read) (f : α → Option β) :
    PassesOn tail fun cs => (read cs).bind fun (a, rest) => (f a).map fun b => (b, rest) := by
  intro cs b rest hread
  obtain ⟨⟨a, more⟩, ha, hmap⟩ := Option.bind_eq_some_iff.1 hread
  obtain ⟨b, hb, heq⟩ := Option.map_eq_some_iff.1 hmap
  cases heq
  simp [h ha, hb]

theorem PassesOn.map {α β : Type} {read : List Char → Option (α × List Char)}
    (h : PassesOn tail read) (f : α → β) :
    PassesOn tail fun cs => (read cs).map fun (a, rest) => (f a, rest) := by
  intro cs b rest hread
  obtain ⟨⟨a, more⟩, ha, heq⟩ := Option.map_eq_some_iff.1 hread
  cases heq
  simp [h ha]

/-! ### Names and flags -/

theorem passesOn_readName (tail name : List Char) : PassesOn tail (readName name) := by
  intro cs a rest h
  induction cs generalizing name with
  | nil => cases h
  | cons c cs ih =>
    rw [readName] at h
    rw [List.cons_append, readName]
    split_ifs at h ⊢ with hclose hempty hname
    · cases h
      rfl
    · exact ih _ h

theorem readFlags_append (tail : List Char) {on dangling : Bool} {before changes : FlagChanges}
    {ended : Bool} (h : readFlags on dangling before cs = some (changes, ended, rest)) :
    readFlags on dangling before (cs ++ tail) = some (changes, ended, rest ++ tail) := by
  induction cs generalizing on dangling before with
  | nil => cases h
  | cons c cs ih =>
    rw [readFlags.eq_def] at h
    rw [List.cons_append, readFlags.eq_def]
    cases hflag : flagOf? c <;> simp only [hflag] at h ⊢ <;> split_ifs at h ⊢
    all_goals first | exact ih h | (cases h; rfl)

/-! ### Escapes -/

theorem passesOn_readHexDigits (tail : List Char) (n count : Nat) :
    PassesOn tail (readHexDigits false n count) := by
  intro cs a rest h
  induction count generalizing cs n with
  | zero =>
    cases h
    rfl
  | succ count ih =>
    cases cs with
    | nil => cases h
    | cons c cs =>
      rw [readHexDigits] at h
      rw [List.cons_append, readHexDigits]
      cases hvalue : hexValue? c with
      | none => simp [hvalue] at h
      | some v =>
        simp only [hvalue] at h ⊢
        exact ih _ h

theorem passesOn_readHexBrace (tail : List Char) (digits : List Nat) :
    PassesOn tail (readHexBrace false digits) := by
  intro cs a rest h
  induction cs generalizing digits with
  | nil => simp [readHexBrace] at h
  | cons c cs ih =>
    rw [readHexBrace] at h
    rw [List.cons_append, readHexBrace]
    split_ifs at h ⊢ with hclose hempty
    · dsimp only at h ⊢
      split_ifs at h ⊢
      cases h
      rfl
    · cases hvalue : hexValue? c with
      | none => simp [hvalue] at h
      | some v =>
        simp only [hvalue] at h ⊢
        exact ih _ h

theorem readHex_brace (count : Nat) (cs : List Char) :
    readHex false count ('\x7b' :: cs) = (readHexBrace false [] cs).bind fun (n, rest) =>
      ((charOf? n).map fun c => ⟨c, false⟩).map fun l => (l, rest) := by
  simp only [readHex, skip_false]
  cases readHexBrace false [] cs <;> simp [Function.comp_def]

theorem readHex_cons (count : Nat) {c : Char} (hc : c ≠ '\x7b') (cs : List Char) :
    readHex false count (c :: cs) = (readHexDigits false 0 count (c :: cs)).bind fun (n, rest) =>
      ((charOf? n).map fun x => ⟨x, count == 2⟩).map fun l => (l, rest) := by
  have hbrace : (c == '\x7b') = false := by simpa using hc
  cases hread : readHexDigits false 0 count (c :: cs) <;>
    simp [readHex, hc, hread, hbrace, Function.comp_def]

theorem passesOn_readHex (tail : List Char) {count : Nat} (hcount : count ≠ 0) :
    PassesOn tail (readHex false count) := by
  intro cs a rest h
  cases cs with
  | nil =>
    obtain ⟨count, rfl⟩ := Nat.exists_eq_succ_of_ne_zero hcount
    simp [readHex, readHexDigits] at h
  | cons c cs =>
    by_cases hc : c = '\x7b'
    · subst hc
      rw [readHex_brace] at h
      rw [List.cons_append, readHex_brace]
      exact (passesOn_readHexBrace tail []).filterMap (fun n => (charOf? n).map _) h
    · rw [readHex_cons count hc] at h
      rw [List.cons_append, readHex_cons count hc]
      exact (passesOn_readHexDigits tail 0 count).filterMap (fun n => (charOf? n).map _) h

theorem passesOn_readPropertyName (tail name : List Char) :
    PassesOn tail (readPropertyName false name) := by
  intro cs a rest h
  induction cs generalizing name with
  | nil => simp [readPropertyName] at h
  | cons c cs ih =>
    rw [readPropertyName] at h
    rw [List.cons_append, readPropertyName]
    split_ifs at h ⊢ with hclose
    · cases h
      rfl
    · exact ih _ h

theorem passesOn_readProperty (tail : List Char) : PassesOn tail (readProperty false) := by
  intro cs a rest h
  cases cs with
  | nil => simp [readProperty] at h
  | cons c cs =>
    by_cases hbrace : c = '\x7b'
    · subst hbrace
      exact passesOn_readPropertyName tail [] h
    · simp only [readProperty, skip_false, List.cons_append] at h ⊢
      split_ifs at h ⊢
      cases h
      rfl

theorem readBoundaryName_append (htail : IsInert tail) (name cs : List Char) :
    readBoundaryName false name (cs ++ tail) =
      ((readBoundaryName false name cs).1, (readBoundaryName false name cs).2 ++ tail) := by
  induction cs generalizing name with
  | nil =>
    have hletters : Char.isAlpha ')' = false ∧ Char.isAlpha '$' = false := by decide
    obtain rfl | ⟨more, rfl | rfl⟩ := htail.head? <;> simp [readBoundaryName, hletters]
  | cons c cs ih =>
    rw [List.cons_append, readBoundaryName, readBoundaryName]
    split_ifs
    · exact ih _
    · rfl

theorem passesOn_readBoundary (htail : IsInert tail) : PassesOn tail (readBoundary false) := by
  intro cs a rest h
  cases cs with
  | nil =>
    cases h
    obtain rfl | ⟨more, rfl | rfl⟩ := htail.head? <;> rfl
  | cons c cs =>
    by_cases hbrace : c = '\x7b'
    · subst hbrace
      cases cs with
      | nil => cases h
      | cons d cs =>
        simp only [readBoundary, skip_false, List.cons_append] at h ⊢
        split_ifs at h ⊢ with hletter
        · rw [← List.cons_append, readBoundaryName_append htail]
          generalize readBoundaryName false [] (d :: cs) = read at h ⊢
          obtain ⟨name, more⟩ := read
          cases more with
          | nil => cases h
          | cons e more =>
            by_cases hclose : e = '\x7d'
            · subst hclose
              simp only [List.cons_append] at h ⊢
              split_ifs at h ⊢
              all_goals
                cases h
                rfl
            · simp [hclose] at h
        · cases h
          rfl
    · obtain ⟨rfl, rfl⟩ : .wordBoundary = a ∧ c :: cs = rest := by
        simpa [readBoundary, hbrace] using h
      simp [readBoundary, hbrace]

/-- Most escapes are a single character. -/
theorem readEscape_cons {c : Char} (hc : c ∉ ['x', 'u', 'U', 'p', 'P', 'b']) (rest : List Char) :
    readEscape false (c :: rest) = (readEscape false [c]).map fun (f, _) => (f, rest) := by
  simp only [List.mem_cons, List.not_mem_nil, or_false, not_or] at hc
  obtain ⟨hx, hu, hU, hp, hP, hb⟩ := hc
  simp only [readEscape, if_neg hx, if_neg hu, if_neg hU, if_neg hp, if_neg hP, if_neg hb,
    apply_ite (Option.map _), Option.map_some, Option.map_none]

theorem passesOn_readEscape (htail : IsInert tail) : PassesOn tail (readEscape false) := by
  intro cs a rest h
  cases cs with
  | nil => cases h
  | cons c cs =>
    by_cases hc : c ∈ ['x', 'u', 'U', 'p', 'P', 'b']
    · have hhex := fun n (hn : n ≠ 0) => (passesOn_readHex tail hn).map Form.literal
      have hproperty := fun negated =>
        (passesOn_readProperty tail).map fun name => Form.property name negated
      simp only [List.mem_cons, List.not_mem_nil, or_false] at hc
      rcases hc with rfl | rfl | rfl | rfl | rfl | rfl
      · exact hhex 2 (by decide) h
      · exact hhex 4 (by decide) h
      · exact hhex 8 (by decide) h
      · exact hproperty false h
      · exact hproperty true h
      · exact (passesOn_readBoundary htail).map Form.assertion h
    · rw [readEscape_cons hc] at h
      rw [List.cons_append, readEscape_cons hc]
      obtain ⟨⟨f, more⟩, hf, heq⟩ := Option.map_eq_some_iff.1 h
      cases heq
      simp [hf]

/-! ### Sets of characters -/

/-- Is a set negated, and what comes after the sign that says so? -/
def negation : List Char → Bool × List Char
  | '^' :: cs => (true, cs)
  | cs => (false, cs)

theorem negation_append (htail : IsInert tail) (cs : List Char) :
    negation (cs ++ tail) = ((negation cs).1, (negation cs).2 ++ tail) := by
  cases cs with
  | nil => obtain rfl | ⟨more, rfl | rfl⟩ := htail.head? <;> rfl
  | cons c cs =>
    by_cases hc : c = '^'
    · subst hc
      rfl
    · simp [negation, hc]

theorem readAsciiSet?_colon (cs : List Char) :
    readAsciiSet? (':' :: cs) =
      match (negation cs).2.dropWhile (· != ':') with
      | ':' :: ']' :: rest =>
        let name := String.ofList ((negation cs).2.takeWhile (· != ':'))
        if asciiSetNames.contains name then some (.ascii name (negation cs).1, rest) else none
      | _ => none :=
  rfl

/-- What follows neither makes the name of an ASCII set of a member nor the other way round. -/
theorem readAsciiSet?_append (htail : IsInert tail) (cs : List Char) :
    readAsciiSet? (cs ++ tail) = (readAsciiSet? cs).map fun (f, rest) => (f, rest ++ tail) := by
  cases cs with
  | nil => obtain rfl | ⟨more, rfl | rfl⟩ := htail.head? <;> rfl
  | cons c cs =>
    by_cases hc : c = ':'
    · subst hc
      rw [List.cons_append, readAsciiSet?_colon, readAsciiSet?_colon, negation_append htail]
      generalize negation cs = name
      obtain ⟨negated, cs⟩ := name
      simp only
      cases hdrop : cs.dropWhile (· != ':') with
      | nil =>
        have hnone : tail.dropWhile (· != ':') = [] := by
          rw [List.dropWhile_eq_nil_iff]
          intro c hc
          rcases htail c hc with rfl | rfl <;> rfl
        simp [List.dropWhile_append, hdrop, hnone]
      | cons d more =>
        have hlength : (cs.takeWhile (· != ':')).length ≠ cs.length := by
          have hparts := congrArg List.length
            (List.takeWhile_append_dropWhile (p := (· != ':')) (l := cs))
          rw [hdrop, List.length_append, List.length_cons] at hparts
          omega
        simp only [List.dropWhile_append, hdrop, List.isEmpty_cons, Bool.false_eq_true, if_false,
          List.takeWhile_append, if_neg hlength, List.cons_append]
        by_cases hd : d = ':'
        · subst hd
          cases more with
          | nil => obtain rfl | ⟨more, rfl | rfl⟩ := htail.head? <;> rfl
          | cons e more =>
            by_cases he : e = ']'
            · subst he
              simp only [List.cons_append]
              split_ifs <;> rfl
            · simp [he]
        · simp [hd]
    · simp [readAsciiSet?, hc]

theorem passesOn_readSetItem (htail : IsInert tail) : PassesOn tail (readSetItem false) := by
  intro cs a rest h
  cases cs with
  | nil => cases h
  | cons c cs =>
    by_cases hc : c = '\\'
    · subst hc
      exact passesOn_readEscape htail h
    · obtain ⟨rfl, rfl⟩ : .literal ⟨c, false⟩ = a ∧ cs = rest := by simpa [readSetItem] using h
      simp [readSetItem]

theorem passesOn_readSetRange (htail : IsInert tail) : PassesOn tail (readSetRange false) := by
  intro cs a rest h
  simp only [readSetRange, skip_false, Option.bind_eq_bind, Option.pure_def] at h ⊢
  obtain ⟨⟨first, more⟩, hfirst, h⟩ := Option.bind_eq_some_iff.1 h
  rw [passesOn_readSetItem htail hfirst, Option.bind_some]
  cases more with
  | nil => cases h
  | cons c more =>
    by_cases hc : c = '-'
    · subst hc
      cases more with
      | nil => simp [deciding?, readSetItem] at h
      | cons d more =>
        have hdeciding : deciding? false (d :: (more ++ tail)) = deciding? false (d :: more) := rfl
        simp only [List.cons_append, hdeciding] at h ⊢
        split_ifs at h ⊢
        · obtain ⟨item, hitem, heq⟩ := Option.bind_eq_some_iff.1 h
          cases heq
          simp [hitem]
        · obtain ⟨⟨last, after⟩, hlast, hrange⟩ := Option.bind_eq_some_iff.1 h
          have hread := passesOn_readSetItem htail hlast
          rw [List.cons_append] at hread
          rw [hread, Option.bind_some]
          cases first <;> try cases hrange
          cases last <;> try cases hrange
          dsimp only at hrange ⊢
          split_ifs at hrange ⊢
          cases hrange
          rfl
    · obtain ⟨rfl, hitem⟩ : c :: more = rest ∧ setItem? first = some a := by
        simpa [hc, Option.bind_eq_some_iff, and_comm] using h
      simp [hc, hitem]

/-- With fuel for the whole text the hyphens at the start of a set are read to their end. -/
theorem hyphens_eq (members : List SetForm) {fuel : Nat} (hfuel : cs.length ≤ fuel) :
    readSetStart.hyphens false members fuel cs =
      ((cs.takeWhile (· == '-')).foldl (fun ms _ => .literal ⟨'-', false⟩ :: ms) members,
        cs.dropWhile (· == '-')) := by
  induction cs generalizing members fuel with
  | nil => cases fuel <;> rfl
  | cons c cs ih =>
    by_cases hc : c = '-'
    · subst hc
      obtain ⟨fuel, rfl⟩ := Nat.exists_eq_add_of_lt (Nat.lt_of_lt_of_le (Nat.succ_pos _) hfuel)
      simp only [List.length_cons] at hfuel
      simp [readSetStart.hyphens, ih _ (by omega : cs.length ≤ fuel)]
    · simp [readSetStart.hyphens, hc]

/-- The members of a set that stand at its start without an escape. -/
def firstMembers (negated : Bool) (cs : List Char) : Option (Bool × List SetForm × List Char) :=
  let members := (cs.takeWhile (· == '-')).foldl (fun ms _ => .literal ⟨'-', false⟩ :: ms) []
  match cs.dropWhile (· == '-') with
  | [] => none
  | ']' :: rest =>
    if members.isEmpty then
      match rest with
      | [] => none
      | rest => some (negated, [.literal ⟨']', false⟩], rest)
    else some (negated, members, cs.dropWhile (· == '-'))
  | cs => some (negated, members, cs)

theorem readSetStart_eq (cs : List Char) :
    readSetStart false cs = firstMembers (negation cs).1 (negation cs).2 := by
  simp only [readSetStart, skip_false, hyphens_eq [] (Nat.le_refl _)]
  rfl

theorem firstMembers_append (htail : IsInert tail) {negated negated' : Bool}
    {members : List SetForm}
    (h : firstMembers negated cs = some (negated', members, rest)) :
    firstMembers negated (cs ++ tail) = some (negated', members, rest ++ tail) := by
  unfold firstMembers at h ⊢
  rw [htail.dropWhile_append rfl rfl, htail.takeWhile_append rfl rfl]
  generalize cs.dropWhile (· == '-') = after at h ⊢
  cases after with
  | nil => cases h
  | cons c more =>
    simp only [List.cons_append] at h ⊢
    by_cases hc : c = ']'
    · subst hc
      split_ifs at h ⊢
      · cases more with
        | nil => cases h
        | cons d more =>
          cases h
          rfl
      · cases h
        rfl
    · obtain ⟨rfl, rfl, rfl⟩ : negated = negated' ∧ _ = members ∧ c :: more = rest := by
        simpa [hc] using h
      simp [hc]

theorem readSetStart_append (htail : IsInert tail) {negated : Bool} {members : List SetForm}
    (h : readSetStart false cs = some (negated, members, rest)) :
    readSetStart false (cs ++ tail) = some (negated, members, rest ++ tail) := by
  rw [readSetStart_eq] at h ⊢
  rw [negation_append htail]
  exact firstMembers_append htail h

/-- The operation whose sign stands in front, and what comes after it. -/
def operator? : List Char → Option (SetOp × List Char)
  | '&' :: '&' :: rest => some (.inter, rest)
  | '-' :: '-' :: rest => some (.diff, rest)
  | '~' :: '~' :: rest => some (.symmDiff, rest)
  | _ => none

theorem operator?_append (htail : IsInert tail) (cs : List Char) :
    operator? (cs ++ tail) = (operator? cs).map fun (o, rest) => (o, rest ++ tail) := by
  have hnone : ∀ c, operator? (c :: tail) = none := by
    obtain rfl | ⟨more, rfl | rfl⟩ := htail.head? <;> simp [operator?]
  rcases cs with _ | ⟨c, _ | ⟨d, cs⟩⟩
  · obtain rfl | ⟨more, rfl | rfl⟩ := htail.head? <;> rfl
  · rw [List.cons_append, List.nil_append, hnone]
    simp [operator?]
  · simp only [List.cons_append, operator?]
    split <;> simp_all

theorem readSet_cons {pending : List Pending} {members : List SetForm} {c : Char}
    (hopen : c ≠ '[') (hclose : c ≠ ']') (cs : List Char) :
    readSet false pending members (c :: cs) =
      match operator? (c :: cs) with
      | some (o, rest) =>
        let (left, pending) := applyPending pending (SetForm.ofReversed members)
        if rest.length < (c :: cs).length then readSet false (.op o left :: pending) [] rest
        else none
      | none =>
        match readSetRange false (c :: cs) with
        | some (item, rest) =>
          if rest.length < (c :: cs).length then readSet false pending (item :: members) rest
          else none
        | none => none := by
  rw [readSet]
  simp only [skip_false]
  split
  · rename_i heq
    cases heq
  · rename_i heq
    exact absurd (List.cons.inj heq).1 hopen
  · rename_i heq
    exact absurd (List.cons.inj heq).1 hclose
  · rename_i heq
    cases heq
    rfl
  · rename_i heq
    cases heq
    rfl
  · rename_i heq
    cases heq
    rfl
  · rename_i hinter hdiff hsymm
    have hnone : operator? (c :: cs) = none := by
      unfold operator?
      split
      · rename_i rest heq
        exact absurd heq (hinter rest)
      · rename_i rest heq
        exact absurd heq (hdiff rest)
      · rename_i rest heq
        exact absurd heq (hsymm rest)
      · rfl
    generalize operator? (c :: cs) = found at hnone ⊢
    subst hnone
    rfl

theorem readSet_open (pending : List Pending) (members : List SetForm) (cs : List Char) :
    readSet false pending members ('[' :: cs) =
      match readAsciiSet? cs with
      | some (item, rest) =>
        if rest.length < cs.length + 1 then readSet false pending (item :: members) rest else none
      | none =>
        match readSetStart false cs with
        | some (negated, first, rest) =>
          if rest.length < cs.length + 1 then
            readSet false (.opened members negated :: pending) first rest
          else none
        | none => none := by
  rw [readSet]
  rfl

theorem readSet_shut (pending : List Pending) (members : List SetForm) (cs : List Char) :
    readSet false pending members (']' :: cs) =
      match applyPending pending (SetForm.ofReversed members) with
      | (inner, .opened outer negated :: pending) =>
        if pending.isEmpty then some (.bracket negated inner, cs)
        else readSet false pending (.bracket negated inner :: outer) cs
      | _ => none := by
  rw [readSet]
  generalize applyPending pending (SetForm.ofReversed members) = applied
  obtain ⟨inner, _ | ⟨_ | _, pending⟩⟩ := applied
  · rfl
  · exact if_congr Iff.rfl rfl (if_pos (Nat.lt_succ_self _))
  · rfl

theorem passesOn_readSet (htail : IsInert tail) (pending : List Pending) (members : List SetForm) :
    PassesOn tail (readSet false pending members) := by
  intro cs a rest h
  induction hn : cs.length using Nat.strong_induction_on generalizing cs pending members with
  | h n ih =>
    subst hn
    have hgo : ∀ {pending members more},
        (if more.length < cs.length then readSet false pending members more else none) =
          some (a, rest) →
        (if (more ++ tail).length < (cs ++ tail).length then
          readSet false pending members (more ++ tail) else none) = some (a, rest ++ tail) := by
      intro pending members more hmore
      split_ifs at hmore with hlt
      rw [if_pos (by simpa using hlt)]
      exact ih _ hlt _ _ hmore rfl
    cases cs with
    | nil => simp [readSet] at h
    | cons c cs =>
      rw [List.cons_append]
      by_cases hopen : c = '['
      · subst hopen
        rw [readSet_open] at h ⊢
        rw [readAsciiSet?_append htail]
        cases hascii : readAsciiSet? cs with
        | some read =>
          simp only [hascii] at h
          exact hgo h
        | none =>
          simp only [hascii] at h
          cases hstart : readSetStart false cs with
          | none => simp [hstart] at h
          | some read =>
            obtain ⟨negated, first, more⟩ := read
            simp only [hstart] at h
            simp only [Option.map_none, readSetStart_append htail hstart]
            exact hgo h
      by_cases hclose : c = ']'
      · subst hclose
        rw [readSet_shut] at h ⊢
        generalize applyPending pending (SetForm.ofReversed members) = applied at h ⊢
        obtain ⟨inner, _ | ⟨_ | _, pending⟩⟩ := applied
        · cases h
        · simp only at h ⊢
          split_ifs at h ⊢
          · cases h
            rfl
          · exact ih _ (Nat.lt_succ_self _) _ _ h rfl
        · cases h
      rw [readSet_cons hopen hclose] at h ⊢
      rw [← List.cons_append, operator?_append htail]
      cases hoperator : operator? (c :: cs) with
      | some read =>
        simp only [hoperator] at h
        exact hgo h
      | none =>
        simp only [hoperator] at h
        cases hrange : readSetRange false (c :: cs) with
        | none => simp [hrange] at h
        | some read =>
          simp only [hrange] at h
          simp only [Option.map_none, passesOn_readSetRange htail hrange]
          exact hgo h

theorem passesOn_readBracket (htail : IsInert tail) : PassesOn tail (readBracket false) := by
  intro cs a rest h
  simp only [readBracket, Option.bind_eq_bind] at h ⊢
  obtain ⟨⟨negated, first, more⟩, hstart, h⟩ := Option.bind_eq_some_iff.1 h
  obtain ⟨⟨set, after⟩, hset, h⟩ := Option.bind_eq_some_iff.1 h
  rw [readSetStart_append htail hstart, Option.bind_some, passesOn_readSet htail _ _ hset,
    Option.bind_some]
  cases set <;> cases h
  rfl

/-! ### Repetitions -/

theorem readDigits_append (htail : IsInert tail) (digits cs : List Char) :
    readDigits false digits (cs ++ tail) =
      ((readDigits false digits cs).1, (readDigits false digits cs).2 ++ tail) := by
  induction cs generalizing digits with
  | nil => obtain rfl | ⟨more, rfl | rfl⟩ := htail.head? <;> simp [readDigits, Char.isDigit]
  | cons c cs ih =>
    rw [List.cons_append, readDigits, readDigits]
    split_ifs
    · exact ih _
    · rfl

theorem readCount_append (htail : IsInert tail) (cs : List Char) :
    readCount false (cs ++ tail) = (readCount false cs).map fun (n, rest) => (n, rest ++ tail) := by
  simp only [readCount, skip_false, htail.dropWhile_append (p := Text.isBlank) rfl rfl,
    readDigits_append htail]
  split_ifs <;> rfl

theorem readGreed_append (htail : IsInert tail) (cs : List Char) :
    readGreed (cs ++ tail) = ((readGreed cs).1, (readGreed cs).2 ++ tail) := by
  cases cs with
  | nil => obtain rfl | ⟨more, rfl | rfl⟩ := htail.head? <;> rfl
  | cons c cs =>
    by_cases hc : c = '?'
    · subst hc
      rfl
    · simp [readGreed, hc]

/-- Reads a repetition from its closing brace on. -/
def closeRounds (least : Nat) (most : Option Nat) (cs : List Char) :
    Option (Nat × Option Nat × Bool × List Char) :=
  match cs with
  | '\x7d' :: cs =>
    let (greedy, rest) := readGreed cs
    match most with
    | some most => if least ≤ most then some (least, some most, greedy, rest) else none
    | none => some (least, none, greedy, rest)
  | _ => none

/-- Reads a repetition after the comma behind its least number of rounds. -/
def readMost (least : Nat) (cs : List Char) : Option (Nat × Option Nat × Bool × List Char) :=
  match cs with
  | '\x7d' :: rest => closeRounds least none ('\x7d' :: rest)
  | rest =>
    match readCount false rest with
    | some (.number most, rest) => closeRounds least (some most) rest
    | _ => none

theorem readRounds_eq (cs : List Char) :
    readRounds false cs =
      match readCount false cs with
      | some (.number least, ',' :: rest) => readMost least rest
      | some (.number least, rest) => closeRounds least (some least) rest
      | _ => none := by
  simp only [readRounds, Option.bind_eq_bind, skip_false]
  rcases readCount false cs with _ | ⟨_ | least, _ | ⟨c, cs⟩⟩
  · rfl
  · rfl
  · rfl
  · rfl
  · by_cases hc : c = ','
    · subst hc
      rcases cs with _ | ⟨d, cs⟩
      · rfl
      · by_cases hd : d = '\x7d'
        · subst hd
          rfl
        · simp only [readMost]
          rcases hcount : readCount false (d :: cs) with _ | ⟨_ | most, rest⟩
          · simp [hd, hcount]
          · simp [hd, hcount]
          · simp [hd, hcount]
            rfl
    · by_cases hd : c = '\x7d'
      · simp [hd, closeRounds]
      · simp [hc, hd, closeRounds]

theorem closeRounds_append (htail : IsInert tail) {least n : Nat} {most m : Option Nat}
    {greedy : Bool}
    (h : closeRounds least most cs = some (n, m, greedy, rest)) :
    closeRounds least most (cs ++ tail) = some (n, m, greedy, rest ++ tail) := by
  cases cs with
  | nil => cases h
  | cons c cs =>
    by_cases hc : c = '\x7d'
    · subst hc
      simp only [closeRounds, List.cons_append, readGreed_append htail] at h ⊢
      cases most with
      | none =>
        cases h
        rfl
      | some most =>
        simp only at h ⊢
        split_ifs at h ⊢
        cases h
        rfl
    · simp [closeRounds, hc] at h

theorem readMost_append (htail : IsInert tail) {least n : Nat} {m : Option Nat} {greedy : Bool}
    (h : readMost least cs = some (n, m, greedy, rest)) :
    readMost least (cs ++ tail) = some (n, m, greedy, rest ++ tail) := by
  rcases cs with _ | ⟨c, cs⟩
  · simp [readMost, readCount, readDigits] at h
  by_cases hclose : c = '\x7d'
  · subst hclose
    have hclosed : closeRounds least none ('\x7d' :: cs) = some (n, m, greedy, rest) := h
    exact closeRounds_append htail hclosed
  · have heq : ∀ cs, readMost least (c :: cs) =
        match readCount false (c :: cs) with
        | some (.number most, rest) => closeRounds least (some most) rest
        | _ => none := fun cs => by simp [readMost, hclose]
    rw [heq] at h
    rw [List.cons_append, heq, ← List.cons_append, readCount_append htail]
    rcases hcount : readCount false (c :: cs) with _ | ⟨_ | most, more⟩
    · simp [hcount] at h
    · simp [hcount] at h
    · simp only [hcount] at h
      exact closeRounds_append htail h

theorem readRounds_append (htail : IsInert tail) {least : Nat} {most : Option Nat} {greedy : Bool}
    (h : readRounds false cs = some (least, most, greedy, rest)) :
    readRounds false (cs ++ tail) = some (least, most, greedy, rest ++ tail) := by
  rw [readRounds_eq] at h ⊢
  rw [readCount_append htail]
  rcases hcount : readCount false cs with _ | ⟨_ | n, _ | ⟨c, more⟩⟩
  · simp [hcount] at h
  · simp [hcount] at h
  · simp [hcount] at h
  · simp [hcount, closeRounds] at h
  · by_cases hc : c = ','
    · subst hc
      simp only [hcount] at h
      exact readMost_append htail h
    · have hclosed : closeRounds n (some n) (c :: more) = some (least, most, greedy, rest) := by
        simpa [hcount, hc] using h
      simpa [hc] using closeRounds_append htail hclosed

end Reader

end Regex

end Rehearsal
