import Rehearsal.Proofs.Pattern.Tail

/-!
# Reading as a row of actions

Each step of the reader is an action on its state (`Action`), and outside verbose mode the action
does not depend on the state nor on closing parentheses and dollar signs behind the text
(`exists_begins`). What the steps read is a single item of a row, never a row or an alternative.
-/

namespace Rehearsal

namespace Regex

/-- The form is no chain: it is as deep among other items or alternatives as on its own. -/
def Form.IsItem (f : Form) : Prop := ∀ within, f.depth within = f.depth none

namespace Reader

variable {tail cs rest : List Char}

/-- What the reader does with its state. -/
inductive Action where
  | add (item : Form)
  | flags (changes : FlagChanges)
  | bar
  | capture (name : Option String)
  | enclose (changes : FlagChanges)
  | leave
  | again (least : Nat) (most : Option Nat) (greedy : Bool)

/-- The state after an action, if it is allowed. -/
def Action.perform? (s : State) : Action → Option State
  | add item => some (s.add item)
  | flags changes =>
    some { s.add (.flags changes) with verbose := verboseAfter s.verbose changes }
  | bar => some { s with items := [], branches := Form.ofReversed s.items :: s.branches }
  | capture name =>
    if name.isSome && s.names.contains name then none
    else some (s.enter (.numbered (s.names.length + 1)) s.verbose (name :: s.names))
  | enclose changes => some (s.enter (.plain changes) (verboseAfter s.verbose changes) s.names)
  | leave => s.leave?
  | again least most greedy => s.repeatLast? least most greedy

/-- Only single items are added to a row of items. -/
def Action.AddsItem : Action → Prop
  | add item => item.IsItem
  | _ => True

/-- Outside verbose mode the action is what is read from the character and the text after it, of
which `rest` is left; and it still is with nothing but closing parentheses and dollar signs
behind the text. -/
def Action.Begins (act : Action) (c : Char) (cs rest : List Char) : Prop :=
  ∀ tail, IsInert tail → ∀ s : State, s.verbose = false →
    step s c (cs ++ tail) = (act.perform? s).map fun s => (s, rest ++ tail)

/-- What is read after the sign of a group with a name. -/
def readCapture (s : State) (cs : List Char) : Option (State × List Char) :=
  match readName [] cs with
  | some (name, rest) => (Action.perform? s (.capture (some name))).map fun s => (s, rest)
  | none => none

theorem readGroup_longName {s : State} (hv : s.verbose = false) (cs : List Char) :
    readGroup s ('?' :: 'P' :: '<' :: cs) = readCapture s cs := by
  rw [readGroup, hv, skip_false, readCapture]
  rcases hname : readName [] cs with _ | ⟨name, rest⟩
  · simp [hname]
  · by_cases hold : some name ∈ s.names <;>
      simp [hname, hold, Action.perform?, hv]

theorem readGroup_name {s : State} (hv : s.verbose = false) (cs : List Char) :
    readGroup s ('?' :: '<' :: cs) = readCapture s cs := by
  have hno : ∀ c, c = '=' ∨ c = '!' → ∀ cs, readName [] (c :: cs) = none := by
    have hchars : isNameChar true '=' = false ∧ isNameChar true '!' = false := by decide +kernel
    rintro _ (rfl | rfl) cs <;> simp [readName, hchars]
  rw [readGroup, hv, skip_false, readCapture]
  rcases cs with _ | ⟨c, cs⟩
  · rfl
  by_cases hc : c = '=' ∨ c = '!'
  · rw [hno c hc]
    rcases hc with rfl | rfl <;> rfl
  · rw [not_or] at hc
    rcases hname : readName [] (c :: cs) with _ | ⟨name, rest⟩
    · simp [hc, hname]
    · by_cases hold : some name ∈ s.names <;>
        simp [hc, hname, hold, Action.perform?, hv]

theorem readGroup_flags {s : State} (hv : s.verbose = false) {c : Char}
    (hc : c ∉ ['=', '!', '<', 'P']) (cs : List Char) :
    readGroup s ('?' :: c :: cs) =
      match readFlags true false [] (c :: cs) with
      | some (changes, ended, rest) =>
        if ended && changes.isEmpty then none
        else (Action.perform? s (if ended then .flags changes else .enclose changes)).map fun s =>
          (s, rest)
      | none => none := by
  simp only [List.mem_cons, List.not_mem_nil, or_false, not_or] at hc
  rw [readGroup, hv, skip_false]
  rcases hflags : readFlags true false [] (c :: cs) with _ | ⟨changes, _ | _, rest⟩
  · simp [hc, hflags]
  · simp [hc, hflags, Action.perform?, hv]
  · simp [hc, hflags, Action.perform?, hv]

theorem readGroup_plain {s : State} (hv : s.verbose = false) (hcs : cs.head? ≠ some '?') :
    readGroup s cs = (Action.perform? s (.capture none)).map fun s => (s, cs) := by
  rw [readGroup, hv, skip_false]
  rcases cs with _ | ⟨c, cs⟩
  · simp [Action.perform?, hv]
  · have hc : c ≠ '?' := by simpa using hcs
    simp [hc, Action.perform?, hv]

theorem read_plain {items branches : List Form} {opened : List Opened}
    {names : List (Option String)} (hcs : cs.head? ≠ some '?') :
    read ⟨false, items, branches, opened, names⟩ ('(' :: cs) =
      read ⟨false, [], [], ⟨.numbered (names.length + 1), items, branches, false⟩ :: opened,
        none :: names⟩ cs :=
  read_step rfl ((readGroup_plain rfl hcs).trans rfl) (Nat.le_refl _)

/-- A group with a number and no name. -/
theorem exists_begins_plain {s t : State} (hv : s.verbose = false) (hcs : cs.head? ≠ some '?')
    (h : readGroup s cs = some (t, rest)) :
    ∃ act : Action, act.AddsItem ∧ act.perform? s = some t ∧ act.Begins '(' cs rest := by
  rw [readGroup_plain hv hcs] at h
  obtain ⟨s', hs', heq⟩ := Option.map_eq_some_iff.1 h
  cases heq
  refine ⟨.capture none, trivial, hs', fun tail htail s hv => readGroup_plain hv ?_⟩
  cases cs with
  | nil => obtain rfl | ⟨more, rfl | rfl⟩ := htail.head? <;> simp
  | cons c cs => simpa using hcs

/-- A group with a name, after one of the two signs for it. -/
theorem exists_begins_capture (sign : List Char)
    (hsign : ∀ (s : State) cs, s.verbose = false → readGroup s (sign ++ cs) = readCapture s cs)
    {s t : State} (hv : s.verbose = false) (h : readGroup s (sign ++ cs) = some (t, rest)) :
    ∃ act : Action, act.AddsItem ∧ act.perform? s = some t ∧ act.Begins '(' (sign ++ cs) rest := by
  rw [hsign s cs hv, readCapture] at h
  rcases hname : readName [] cs with _ | ⟨name, more⟩
  · simp [hname] at h
  · simp only [hname] at h
    obtain ⟨s', hs', heq⟩ := Option.map_eq_some_iff.1 h
    cases heq
    refine ⟨.capture (some name), trivial, hs', fun tail htail s hv => ?_⟩
    have hread : readGroup s (sign ++ (cs ++ tail)) = readCapture s (cs ++ tail) := hsign s _ hv
    rw [readCapture, passesOn_readName tail [] hname, ← List.append_assoc] at hread
    exact hread

/-- Flags, with a group of their own or without. -/
theorem exists_begins_flags {s t : State} (hv : s.verbose = false) {c : Char}
    (hc : c ∉ ['=', '!', '<', 'P']) (h : readGroup s ('?' :: c :: cs) = some (t, rest)) :
    ∃ act : Action, act.AddsItem ∧ act.perform? s = some t ∧
      act.Begins '(' ('?' :: c :: cs) rest := by
  rw [readGroup_flags hv hc] at h
  rcases hflags : readFlags true false [] (c :: cs) with _ | ⟨changes, ended, more⟩
  · simp [hflags] at h
  · simp only [hflags] at h
    by_cases hempty : (ended && changes.isEmpty) = true
    · simp [hempty] at h
    · rw [if_neg hempty] at h
      obtain ⟨s', hs', heq⟩ := Option.map_eq_some_iff.1 h
      cases heq
      refine ⟨_, by cases ended <;> trivial, hs', fun tail htail s hv => ?_⟩
      have hread : readGroup s ('?' :: c :: (cs ++ tail)) = _ := readGroup_flags hv hc _
      rw [← List.cons_append, readFlags_append tail hflags] at hread
      simp only [if_neg hempty] at hread
      exact hread

/-- What is read at an opening parenthesis. -/
theorem exists_begins_group {s t : State} (hv : s.verbose = false)
    (h : readGroup s cs = some (t, rest)) :
    ∃ act : Action, act.AddsItem ∧ act.perform? s = some t ∧ act.Begins '(' cs rest := by
  rcases cs with _ | ⟨c, cs⟩
  · exact exists_begins_plain hv (by simp) h
  by_cases hquestion : c = '?'
  · subst hquestion
    rcases cs with _ | ⟨c, cs⟩
    · simp [readGroup, hv, readFlags] at h
    by_cases hc : c ∈ ['=', '!', '<', 'P']
    · simp only [List.mem_cons, List.not_mem_nil, or_false] at hc
      rcases hc with rfl | rfl | rfl | rfl
      · simp [readGroup, hv] at h
      · simp [readGroup, hv] at h
      · exact exists_begins_capture ['?', '<'] (fun s cs hv => readGroup_name hv cs) hv h
      · rcases cs with _ | ⟨c, cs⟩
        · simp [readGroup, hv, readFlags, flagOf?] at h
        by_cases hname : c = '<'
        · subst hname
          exact exists_begins_capture ['?', 'P', '<']
            (fun s cs hv => readGroup_longName hv cs) hv h
        · simp [readGroup, hv, hname, readFlags, flagOf?] at h
    · exact exists_begins_flags hv hc h
  · exact exists_begins_plain hv (by simpa using hquestion) h

/-- In verbose mode too an opening parenthesis begins an action. -/
theorem exists_perform?_of_readGroup {s t : State} (h : readGroup s cs = some (t, rest)) :
    ∃ act : Action, act.AddsItem ∧ act.perform? s = some t := by
  have hnamed : ∀ {more}, (match readName [] more with
      | some (name, rest) =>
        if s.names.contains (some name) then none
        else
          some (s.enter (.numbered (s.names.length + 1)) s.verbose (some name :: s.names), rest)
      | none => none) = some (t, rest) →
        ∃ act : Action, act.AddsItem ∧ act.perform? s = some t := by
    intro more h
    split at h
    · rename_i name _ _
      split_ifs at h with hold
      cases h
      exact ⟨.capture (some name), trivial, by simpa [Action.perform?] using hold⟩
    · cases h
  rw [readGroup] at h
  split at h
  · cases h
  · cases h
  · cases h
  · cases h
  · exact hnamed h
  · exact hnamed h
  · split at h
    · rename_i changes _ _
      split_ifs at h
      cases h
      exact ⟨.flags changes, trivial, rfl⟩
    · rename_i changes _ _
      cases h
      exact ⟨.enclose changes, trivial, rfl⟩
    · cases h
  · cases h
    exact ⟨.capture none, trivial, rfl⟩

theorem isItem_of_readEscape {verbose : Bool} {f : Form}
    (h : readEscape verbose cs = some (f, rest)) : f.IsItem := by
  have hite : ∀ {p : Prop} [Decidable p] {a b : Option (Form × List Char)},
      (∀ r ∈ a, r.1.IsItem) → (∀ r ∈ b, r.1.IsItem) → ∀ r ∈ if p then a else b, r.1.IsItem := by
    intro p _ a b ha hb
    split_ifs
    · exact ha
    · exact hb
  cases cs with
  | nil => cases h
  | cons c cs =>
    suffices hall : ∀ r ∈ readEscape verbose (c :: cs), r.1.IsItem from hall (f, rest) h
    rw [readEscape]
    -- one goal for each letter: what is read is given, or what a reader of its own has read
    repeat' refine hite ?_ ?_
    all_goals
      intro r hr
      first
        | cases hr <;> exact fun _ => rfl
        | obtain ⟨_, _, rfl⟩ := Option.map_eq_some_iff.1 hr
          exact fun _ => rfl

theorem isItem_of_readBracket {verbose : Bool} {f : Form}
    (h : readBracket verbose cs = some (f, rest)) : f.IsItem := by
  simp only [readBracket, Option.bind_eq_bind, Option.bind_eq_some_iff] at h
  obtain ⟨_, -, ⟨set, more⟩, -, h⟩ := h
  cases set <;> cases h
  exact fun _ => rfl

/-- An item that is read by a reader of its own. -/
theorem exists_begins_add {s t : State} {c : Char}
    {read : Bool → List Char → Option (Form × List Char)}
    (hread : ∀ tail, IsInert tail → PassesOn tail (read false))
    (hitem : ∀ {verbose cs rest f}, read verbose cs = some (f, rest) → f.IsItem)
    (hstep : ∀ (s : State) cs,
      step s c cs = (read s.verbose cs).map fun (f, rest) => (s.add f, rest))
    (h : step s c cs = some (t, rest)) :
    ∃ act : Action, act.AddsItem ∧ act.perform? s = some t ∧
      (s.verbose = false → act.Begins c cs rest) := by
  rw [hstep] at h
  obtain ⟨⟨f, more⟩, hf, heq⟩ := Option.map_eq_some_iff.1 h
  cases heq
  refine ⟨.add f, hitem hf, rfl, fun hv tail htail s hv' => ?_⟩
  rw [hv] at hf
  rw [hstep, hv', hread tail htail hf]
  rfl

/-- A sign for a repetition, with or without a question mark behind it. -/
theorem exists_begins_again {s t : State} {c : Char} {least : Nat} {most : Option Nat}
    (hstep : ∀ (s : State) cs, step s c cs =
      (s.repeatLast? least most (readGreed cs).1).map fun s => (s, (readGreed cs).2))
    (h : step s c cs = some (t, rest)) :
    ∃ act : Action, act.AddsItem ∧ act.perform? s = some t ∧
      (s.verbose = false → act.Begins c cs rest) := by
  rw [hstep] at h
  obtain ⟨s', hs', heq⟩ := Option.map_eq_some_iff.1 h
  cases heq
  refine ⟨.again least most _, trivial, hs', fun _ tail htail s _ => ?_⟩
  rw [hstep, readGreed_append htail]
  rfl

theorem step_rounds (s : State) (cs : List Char) :
    step s '\x7b' cs =
      match readRounds s.verbose cs with
      | some (least, most, greedy, rest) =>
        (s.repeatLast? least most greedy).map fun s => (s, rest)
      | none => none :=
  rfl

/-- A repetition in braces. -/
theorem exists_begins_rounds {s t : State} (h : step s '\x7b' cs = some (t, rest)) :
    ∃ act : Action, act.AddsItem ∧ act.perform? s = some t ∧
      (s.verbose = false → act.Begins '\x7b' cs rest) := by
  rw [step_rounds] at h
  rcases hrounds : readRounds s.verbose cs with _ | ⟨least, most, greedy, more⟩
  · simp [hrounds] at h
  · simp only [hrounds] at h
    obtain ⟨s', hs', heq⟩ := Option.map_eq_some_iff.1 h
    cases heq
    refine ⟨.again least most greedy, trivial, hs', fun hv tail htail s hv' => ?_⟩
    rw [hv] at hrounds
    rw [step_rounds, hv', readRounds_append htail hrounds]
    rfl

/-- What is read at any other character than these stands for itself. -/
def operators : List Char := ['(', ')', '|', '[', '?', '*', '+', '\x7b', '\\', '.', '^', '$']

theorem step_literal {c : Char} (hc : c ∉ operators) (s : State) (cs : List Char) :
    step s c cs = some (s.add (.literal ⟨c, false⟩), cs) := by
  simp only [operators, List.mem_cons, List.not_mem_nil, or_false, not_or] at hc
  simp [step, hc]

theorem read_literal {items branches : List Form} {opened : List Opened}
    {names : List (Option String)} {c : Char} (hc : c ∉ operators) :
    read ⟨false, items, branches, opened, names⟩ (c :: rest) =
      read ⟨false, .literal ⟨c, false⟩ :: items, branches, opened, names⟩ rest :=
  read_step rfl (step_literal hc _ rest) (Nat.le_refl _)

/-- Each step of the reader is an action. Outside verbose mode it is read in the same way in front
of closing parentheses and dollar signs and whatever else the reader has in its state. -/
theorem exists_begins {s t : State} {c : Char} (h : step s c cs = some (t, rest)) :
    ∃ act : Action, act.AddsItem ∧ act.perform? s = some t ∧
      (s.verbose = false → act.Begins c cs rest) := by
  by_cases hc : c ∈ operators
  · simp only [operators, List.mem_cons, List.not_mem_nil, or_false] at hc
    rcases hc with rfl | rfl | rfl | rfl | rfl | rfl | rfl | rfl | rfl | rfl | rfl | rfl
    · by_cases hv : s.verbose = false
      · obtain ⟨act, hitem, hact, hbegins⟩ := exists_begins_group hv h
        exact ⟨act, hitem, hact, fun _ => hbegins⟩
      · obtain ⟨act, hitem, hact⟩ := exists_perform?_of_readGroup h
        exact ⟨act, hitem, hact, fun hno => absurd hno hv⟩
    · obtain ⟨s', hs', heq⟩ := Option.map_eq_some_iff.1 h
      cases heq
      exact ⟨.leave, trivial, hs', fun _ tail _ s _ => rfl⟩
    · cases h
      exact ⟨.bar, trivial, rfl, fun _ tail _ s _ => rfl⟩
    · exact exists_begins_add (fun tail => passesOn_readBracket) isItem_of_readBracket
        (fun s cs => rfl) h
    · exact exists_begins_again (fun s cs => rfl) h
    · exact exists_begins_again (fun s cs => rfl) h
    · exact exists_begins_again (fun s cs => rfl) h
    · exact exists_begins_rounds h
    · exact exists_begins_add (fun tail => passesOn_readEscape) isItem_of_readEscape
        (fun s cs => rfl) h
    · cases h
      exact ⟨.add .dot, fun _ => rfl, rfl, fun _ tail _ s _ => rfl⟩
    · cases h
      exact ⟨.add (.assertion .caret), fun _ => rfl, rfl, fun _ tail _ s _ => rfl⟩
    · cases h
      exact ⟨.add (.assertion .dollar), fun _ => rfl, rfl, fun _ tail _ s _ => rfl⟩
  · rw [step_literal hc] at h
    cases h
    exact ⟨.add (.literal ⟨c, false⟩), fun _ => rfl, rfl, fun _ tail _ s _ => step_literal hc s _⟩

end Reader

end Regex

end Rehearsal
