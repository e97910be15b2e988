import Rehearsal.Pattern
import Rehearsal.Proofs.Pattern.Weight

/-!
# Reading the expression of a pattern

The expression that stands for a pattern is written as text and read again. Each thing that is
written there has a lemma that says in which state the reader is after it, with whatever may follow:
an escaped character, a group with the name of a placeholder, and the expressions of the built-in
types (`readsAs_written`).
-/

namespace Rehearsal

namespace Regex

namespace Reader

variable {items branches : List Form} {opened : List Opened} {names : List (Option String)}
  {item : Form} {rest : List Char}

theorem read_nil (s : State) (hv : s.verbose = false) : read s [] = some s := by
  rw [read, hv]
  rfl

theorem read_step {s s' : State} {c : Char} {rest more : List Char} (hv : s.verbose = false)
    (h : step s c rest = some (s', more)) (hle : more.length ≤ rest.length) :
    read s (c :: rest) = read s' more := by
  have hlt : more.length < rest.length + 1 := by omega
  rw [read, hv]
  simp [h, hlt]

theorem read_dot : read ⟨false, items, branches, opened, names⟩ ('.' :: rest) =
    read ⟨false, .dot :: items, branches, opened, names⟩ rest :=
  read_step rfl rfl (Nat.le_refl _)

theorem read_bar : read ⟨false, items, branches, opened, names⟩ ('|' :: rest) =
    read ⟨false, [], Form.ofReversed items :: branches, opened, names⟩ rest :=
  read_step rfl rfl (Nat.le_refl _)

theorem read_caret : read ⟨false, items, branches, opened, names⟩ ('^' :: rest) =
    read ⟨false, .assertion .caret :: items, branches, opened, names⟩ rest :=
  read_step rfl rfl (Nat.le_refl _)

theorem read_dollar : read ⟨false, items, branches, opened, names⟩ ('$' :: rest) =
    read ⟨false, .assertion .dollar :: items, branches, opened, names⟩ rest :=
  read_step rfl rfl (Nat.le_refl _)

theorem read_leave {o : Opened} : read ⟨false, items, branches, o :: opened, names⟩ (')' :: rest) =
    read ⟨o.verbose, .group o.kind (Form.ofBranches (Form.ofReversed items :: branches)) :: o.items,
      o.branches, opened, names⟩ rest :=
  read_step rfl rfl (Nat.le_refl _)

theorem read_digit : read ⟨false, items, branches, opened, names⟩ ('\\' :: 'd' :: rest) =
    read ⟨false, .named .digit false :: items, branches, opened, names⟩ rest :=
  read_step rfl rfl (by simp)

theorem read_enter : read ⟨false, items, branches, opened, names⟩ ('(' :: '?' :: ':' :: rest) =
    read ⟨false, [], [], ⟨.plain [], items, branches, false⟩ :: opened, names⟩ rest :=
  read_step rfl rfl (by simp; omega)

theorem readSet_close {negated : Bool} {members : List SetForm} :
    readSet false [.opened [] negated] members (']' :: rest) =
      some (.bracket negated (SetForm.ofReversed members), rest) := by
  rw [readSet]
  simp [applyPending]

theorem read_signSet :
    read ⟨false, items, branches, opened, names⟩ ('[' :: '-' :: '+' :: ']' :: rest) =
      read ⟨false, .bracket false (.union (.literal ⟨'-', false⟩) (.literal ⟨'+', false⟩)) :: items,
        branches, opened, names⟩ rest := by
  have hset : readSet false [.opened [] false] [.literal ⟨'-', false⟩] ('+' :: ']' :: rest) =
      some (.bracket false (.union (.literal ⟨'-', false⟩) (.literal ⟨'+', false⟩)), rest) := by
    rw [readSet]
    simp [readSetRange, readSetItem, setItem?, readSet_close, SetForm.ofReversed]
  refine read_step rfl ?_ (by simp; omega)
  simp [step, readBracket, readSetStart, readSetStart.hyphens, hset, State.add]

theorem read_exponentSet :
    read ⟨false, items, branches, opened, names⟩ ('[' :: 'e' :: 'E' :: ']' :: rest) =
      read ⟨false, .bracket false (.union (.literal ⟨'e', false⟩) (.literal ⟨'E', false⟩)) :: items,
        branches, opened, names⟩ rest := by
  have hlast : readSet false [.opened [] false] [.literal ⟨'e', false⟩] ('E' :: ']' :: rest) =
      some (.bracket false (.union (.literal ⟨'e', false⟩) (.literal ⟨'E', false⟩)), rest) := by
    rw [readSet]
    simp [readSetRange, readSetItem, setItem?, readSet_close, SetForm.ofReversed]
  have hset : readSet false [.opened [] false] [] ('e' :: 'E' :: ']' :: rest) =
      some (.bracket false (.union (.literal ⟨'e', false⟩) (.literal ⟨'E', false⟩)), rest) := by
    rw [readSet]
    simp [readSetRange, readSetItem, setItem?, hlast]
  refine read_step rfl ?_ (by simp; omega)
  simp [step, readBracket, readSetStart, readSetStart.hyphens, hset, State.add]

theorem read_nonBlankSet :
    read ⟨false, items, branches, opened, names⟩ ('[' :: '^' :: '\\' :: 's' :: ']' :: rest) =
      read ⟨false, .bracket true (.named .space false) :: items, branches, opened, names⟩ rest := by
  have hset : readSet false [.opened [] true] [] ('\\' :: 's' :: ']' :: rest) =
      some (.bracket true (.named .space false), rest) := by
    rw [readSet]
    simp [readSetRange, readSetItem, readEscape, setItem?, readSet_close, SetForm.ofReversed]
  refine read_step rfl ?_ (by simp; omega)
  simp [step, readBracket, readSetStart, readSetStart.hyphens, hset, State.add]

theorem readGreed_of_head? (hrest : rest.head? ≠ some '?') : readGreed rest = (true, rest) := by
  unfold readGreed
  split
  · simp at hrest
  · rfl

theorem read_plus (hrepeat : item.isRepeatable = true) (hrest : rest.head? ≠ some '?') :
    read ⟨false, item :: items, branches, opened, names⟩ ('+' :: rest) =
      read ⟨false, .rounds 1 none true item :: items, branches, opened, names⟩ rest := by
  refine read_step rfl ?_ (Nat.le_refl _)
  simp [step, readGreed_of_head? hrest, State.repeatLast?, hrepeat]

theorem read_star (hrepeat : item.isRepeatable = true) (hrest : rest.head? ≠ some '?') :
    read ⟨false, item :: items, branches, opened, names⟩ ('*' :: rest) =
      read ⟨false, .rounds 0 none true item :: items, branches, opened, names⟩ rest := by
  refine read_step rfl ?_ (Nat.le_refl _)
  simp [step, readGreed_of_head? hrest, State.repeatLast?, hrepeat]

theorem read_question (hrepeat : item.isRepeatable = true) (hrest : rest.head? ≠ some '?') :
    read ⟨false, item :: items, branches, opened, names⟩ ('?' :: rest) =
      read ⟨false, .rounds 0 (some 1) true item :: items, branches, opened, names⟩ rest := by
  refine read_step rfl ?_ (Nat.le_refl _)
  simp [step, readGreed_of_head? hrest, State.repeatLast?, hrepeat]

theorem read_lazyPlus (hrepeat : item.isRepeatable = true) :
    read ⟨false, item :: items, branches, opened, names⟩ ('+' :: '?' :: rest) =
      read ⟨false, .rounds 1 none false item :: items, branches, opened, names⟩ rest := by
  refine read_step rfl ?_ (Nat.le_succ _)
  simp [step, readGreed, State.repeatLast?, hrepeat]

/-- A character is read back as itself from its escaped form. -/
theorem read_escape (c : Char) :
    read ⟨false, items, branches, opened, names⟩ (StepPattern.escape c ++ rest) =
      read ⟨false, .literal ⟨c, false⟩ :: items, branches, opened, names⟩ rest := by
  rw [StepPattern.escape]
  split
  · rename_i hmeta
    refine read_step rfl ?_ (Nat.le_succ _)
    simp [isMeta] at hmeta
    rcases hmeta with rfl | rfl | rfl | rfl | rfl | rfl | rfl | rfl | rfl | rfl | rfl | rfl | rfl |
      rfl | rfl | rfl | rfl | rfl <;> rfl
  · rename_i hplain
    refine read_step rfl ?_ (Nat.le_refl _)
    simp [isMeta] at hplain
    simp [step, hplain, State.add]

theorem readName_append {name : List Char}
    (hname : ∀ c ∈ name, c ≠ '>' ∧ isNameChar false c = true) (read : List Char) (hread : read ≠ [])
    (rest : List Char) :
    readName read (name ++ '>' :: rest) = some (String.ofList (read.reverse ++ name), rest) := by
  induction name generalizing read with
  | nil => simp [readName, hread]
  | cons c name ih =>
    obtain ⟨⟨hclose, hc⟩, hrest⟩ := List.forall_mem_cons.1 hname
    have hempty : read.isEmpty = false := by simpa using hread
    rw [List.cons_append, readName, if_neg hclose, hempty, if_pos hc, ih hrest _ (by simp)]
    simp

/-- The names of the groups of the first `n` placeholders, the last one first. -/
def groupNames (n : Nat) : List (Option String) :=
  ((List.range n).map fun i => some (StepPattern.groupName i)).reverse

theorem groupNames_succ (n : Nat) :
    groupNames (n + 1) = some (StepPattern.groupName n) :: groupNames n := by
  simp [groupNames, List.range_succ]

theorem toList_groupName (n : Nat) :
    (StepPattern.groupName n).toList = '_' :: '_' :: 'p' :: Nat.toDigits 10 n := by
  simp [StepPattern.groupName]

theorem groupName_injective {m n : Nat} (h : StepPattern.groupName m = StepPattern.groupName n) :
    m = n := by
  have hlist := congrArg String.toList h
  simp only [toList_groupName, List.cons.injEq, true_and] at hlist
  rw [← Nat.ofDigitChars_ten_toDigits (n := m), hlist, Nat.ofDigitChars_ten_toDigits]

theorem groupName_mem_iff {m n : Nat} : some (StepPattern.groupName m) ∈ groupNames n ↔ m < n := by
  simp only [groupNames, List.mem_reverse, List.mem_map, List.mem_range, Option.some.injEq]
  exact ⟨fun ⟨i, hi, heq⟩ => groupName_injective heq ▸ hi, fun h => ⟨m, h, rfl⟩⟩

theorem isNameChar_of_isDigit {c : Char} (h : c.isDigit = true) : isNameChar false c = true := by
  have hascii : c.toNat < 128 := by
    simp only [Char.isDigit, Bool.and_eq_true, decide_eq_true_eq, UInt32.le_iff_toNat_le] at h
    exact Nat.lt_of_le_of_lt h.2 (by decide)
  simp [isNameChar, Text.Recent.isAlphanumeric, hascii, Text.isAsciiAlphanumeric, h]

theorem readName_groupName (n : Nat) (rest : List Char) :
    readName [] ((StepPattern.groupName n).toList ++ '>' :: rest) =
      some (StepPattern.groupName n, rest) := by
  have hname : ∀ c ∈ '_' :: 'p' :: Nat.toDigits 10 n, c ≠ '>' ∧ isNameChar false c = true := by
    refine List.forall_mem_cons.2 ⟨by decide, List.forall_mem_cons.2 ⟨by decide, fun c hc => ?_⟩⟩
    have hdigit := Nat.isDigit_of_mem_toDigits (by decide) (by decide) hc
    refine ⟨?_, isNameChar_of_isDigit hdigit⟩
    rintro rfl
    cases hdigit
  have hread := readName_append hname ['_'] (by simp) rest
  rw [toList_groupName, List.cons_append, readName, if_neg (by decide), if_pos (by decide), hread,
    Option.some.injEq, Prod.mk.injEq, ← String.toList_inj, String.toList_ofList, toList_groupName]
  exact ⟨rfl, rfl⟩

/-- A named group is opened under the next number. -/
theorem read_enterNamed (n : Nat) :
    read ⟨false, items, branches, opened, groupNames n⟩
        (("(?P<" ++ StepPattern.groupName n ++ ">").toList ++ rest) =
      read ⟨false, [], [], ⟨.numbered (n + 1), items, branches, false⟩ :: opened,
        groupNames (n + 1)⟩ rest := by
  have htext : ("(?P<" ++ StepPattern.groupName n ++ ">").toList ++ rest =
      '(' :: '?' :: 'P' :: '<' :: ((StepPattern.groupName n).toList ++ '>' :: rest) := by
    simp
  have hnew : some (StepPattern.groupName n) ∉ groupNames n := fun h =>
    Nat.lt_irrefl n (groupName_mem_iff.1 h)
  have hlength : (groupNames n).length = n := by simp [groupNames]
  rw [htext]
  refine read_step rfl ?_ (by simp; omega)
  simp [step, readGroup, readName_groupName, hnew, hlength, State.enter, groupNames_succ]

/-! ### The expressions of the built-in types -/

def digitsForm : Form := .rounds 1 none true (.named .digit false)

def signForm : Form :=
  .rounds 0 (some 1) true (.bracket false (.union (.literal ⟨'-', false⟩) (.literal ⟨'+', false⟩)))

def pointForm : Form := .literal ⟨'.', false⟩

theorem read_digits (hrest : rest.head? ≠ some '?') :
    read ⟨false, items, branches, opened, names⟩ ('\\' :: 'd' :: '+' :: rest) =
      read ⟨false, digitsForm :: items, branches, opened, names⟩ rest := by
  rw [read_digit, read_plus rfl hrest]
  rfl

theorem read_sign (hrest : rest.head? ≠ some '?') :
    read ⟨false, items, branches, opened, names⟩ ('[' :: '-' :: '+' :: ']' :: '?' :: rest) =
      read ⟨false, signForm :: items, branches, opened, names⟩ rest := by
  rw [read_signSet, read_question rfl hrest]
  rfl

theorem read_point :
    read ⟨false, items, branches, opened, names⟩ ('\\' :: '.' :: rest) =
      read ⟨false, pointForm :: items, branches, opened, names⟩ rest :=
  read_escape '.'

def mantissaForm : Form :=
  .alternation (.concat digitsForm (.concat pointForm (.rounds 0 none true (.named .digit false))))
    (.alternation (.concat pointForm digitsForm) digitsForm)

def exponentForm : Form :=
  .rounds 0 (some 1) true (.group (.plain []) (.concat
    (.bracket false (.union (.literal ⟨'e', false⟩) (.literal ⟨'E', false⟩)))
    (.concat signForm digitsForm)))

theorem read_mantissa :
    read ⟨false, items, branches, opened, names⟩ ("(?:\\d+\\.\\d*|\\.\\d+|\\d+)".toList ++ rest) =
      read ⟨false, .group (.plain []) mantissaForm :: items, branches, opened, names⟩ rest := by
  change read _ ('(' :: '?' :: ':' :: '\\' :: 'd' :: '+' :: '\\' :: '.' :: '\\' :: 'd' :: '*' ::
    '|' :: '\\' :: '.' :: '\\' :: 'd' :: '+' :: '|' :: '\\' :: 'd' :: '+' :: ')' :: rest) = _
  rw [read_enter, read_digits (by simp), read_point, read_digit, read_star rfl (by simp), read_bar,
    read_point, read_digits (by simp), read_bar, read_digits (by simp), read_leave]
  rfl

theorem read_exponent (hrest : rest.head? ≠ some '?') :
    read ⟨false, items, branches, opened, names⟩ ("(?:[eE][-+]?\\d+)?".toList ++ rest) =
      read ⟨false, exponentForm :: items, branches, opened, names⟩ rest := by
  change read _ ('(' :: '?' :: ':' :: '[' :: 'e' :: 'E' :: ']' :: '[' :: '-' :: '+' :: ']' :: '?' ::
    '\\' :: 'd' :: '+' :: ')' :: '?' :: rest) = _
  rw [read_enter, read_exponentSet, read_sign (by simp), read_digits (by simp), read_leave,
    read_question rfl hrest]
  rfl

/-- The text is read inside a group as items that denote the language, are nested no deeper than
those of doubles and take up memory by the length of the text. -/
def ReadsAs (w : List Char) (L : List Char → Prop) : Prop :=
  ∃ items r, (∀ opened names rest,
      read ⟨false, [], [], opened, names⟩ (w ++ ')' :: rest) =
        read ⟨false, items, [], opened, names⟩ (')' :: rest)) ∧
    (Form.ofReversed items).meaning .default = some (r, .default) ∧ r.Denotes L ∧
      (Form.ofReversed items).depth none ≤ 7 ∧ r.tree.Within (1400 * w.length)

/-- The regular expression of a placeholder. -/
def written (type : Option ParameterType) : List Char :=
  match type with
  | some type => type.regex.toList
  | none => ParameterType.untypedRegex.toList

theorem readsAs_untyped : ReadsAs (written none) (ParameterType.Allows none) := by
  refine ⟨[.rounds 1 none false .dot], anyOnLine, fun opened names rest => ?_, rfl,
    denotes_anyOnLine, by decide, weighs_anyOnLine.within.mono (by decide)⟩
  change read _ ('.' :: '+' :: '?' :: ')' :: rest) = _
  rw [read_dot, read_lazyPlus rfl]

theorem readsAs_int (name : String) :
    ReadsAs (written (some (.int name))) (ParameterType.Allows (some (.int name))) := by
  have htext : written (some (.int name)) = "[-+]?\\d+".toList := rfl
  rw [htext]
  refine ⟨[digitsForm, signForm], .seq sign digits, fun opened names rest => ?_, rfl,
    denotes_int.congr fun w => ParameterType.allows_int_iff.symm, by decide,
    weighs_int.within.mono (by decide)⟩
  change read _ ('[' :: '-' :: '+' :: ']' :: '?' :: '\\' :: 'd' :: '+' :: ')' :: rest) = _
  rw [read_sign (by simp), read_digits (by simp)]

theorem readsAs_float (name : String) :
    ReadsAs (written (some (.float name))) (ParameterType.Allows (some (.float name))) := by
  have htext : written (some (.float name)) = '[' :: '-' :: '+' :: ']' :: '?' ::
      ("(?:\\d+\\.\\d*|\\.\\d+|\\d+)".toList ++ "(?:[eE][-+]?\\d+)?".toList) := by
    simp [written, ParameterType.float]
  rw [htext]
  refine ⟨[exponentForm, .group (.plain []) mantissaForm, signForm],
    .seq sign (.seq (.enclosed mantissa) exponent), fun opened names rest => ?_, rfl,
    denotes_float.congr fun w => ParameterType.allows_float_iff.symm, by decide,
    weighs_float.within.mono (by decide)⟩
  change read _ ('[' :: '-' :: '+' :: ']' :: '?' ::
    ("(?:\\d+\\.\\d*|\\.\\d+|\\d+)".toList ++ ("(?:[eE][-+]?\\d+)?".toList ++ ')' :: rest))) = _
  rw [read_sign (by simp), read_mantissa, read_exponent (by simp)]

theorem readsAs_word (name : String) :
    ReadsAs (written (some (.word name))) (ParameterType.Allows (some (.word name))) := by
  have htext : written (some (.word name)) = "[^\\s]+".toList := rfl
  rw [htext]
  refine ⟨[.rounds 1 none true (.bracket true (.named .space false))], nonBlanks,
    fun opened names rest => ?_, rfl, denotes_nonBlanks name, by decide,
    weighs_nonBlanks.within.mono (by decide)⟩
  change read _ ('[' :: '^' :: '\\' :: 's' :: ']' :: '+' :: ')' :: rest) = _
  rw [read_nonBlankSet, read_plus rfl (by simp)]

/-- The expression of a placeholder is read as one that denotes its language. -/
theorem readsAs_written (type : Option ParameterType)
    (htype : ∀ t ∈ type, t ∈ ParameterType.builtIn) :
    ReadsAs (written type) (ParameterType.Allows type) := by
  cases type with
  | none => exact readsAs_untyped
  | some t =>
    have hmem := htype t rfl
    simp only [ParameterType.builtIn, List.mem_cons, List.not_mem_nil, or_false] at hmem
    rcases hmem with rfl | rfl | rfl | rfl | rfl | rfl
    · exact readsAs_int "int"
    · exact readsAs_int "d"
    · exact readsAs_float "float"
    · exact readsAs_float "f"
    · exact readsAs_word "word"
    · exact readsAs_word "w"

end Reader

end Regex

end Rehearsal
