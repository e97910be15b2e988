import Rehearsal.Proofs.Pattern.Pieces
import Rehearsal.Proofs.Pattern.Source

/-!
# Where arguments lie

The expression of a pattern marks where the text of each placeholder lies, and the arguments are
taken from between these marks. `PatternPiece.Lays` says how they lie in the text: one for each
placeholder, in order, with the literals in the gaps (`StepPattern.lays_of_argumentsOf`).
-/

namespace Rehearsal

theorem Text.byteOffset_add (cs : List Char) (i k : Nat) :
    byteOffset cs (i + k) = byteOffset cs i + byteLength ((cs.drop i).take k) := by
  rw [byteOffset, List.take_add, byteLength_append, byteOffset]

/-- The argument is the part of the text between its offsets. -/
def Argument.IsPartOf (a : Argument) (text : List Char) : Prop :=
  ∃ before after, text = before ++ a.raw.toList ++ after ∧ a.start = Text.byteLength before ∧
    a.stop = Text.byteLength (before ++ a.raw.toList)

/-! ### The marks of a group -/

namespace Regex

/-- The number of the group that a mark is about. -/
def Mark.index : Mark → Nat
  | opened n _ => n
  | closed n _ => n

theorem lastOpened_eq_some {n i : Nat} {ms : List Mark} (hmem : .opened n i ∈ ms)
    (huniq : ∀ j, .opened n j ∈ ms → j = i) : lastOpened n ms = some i := by
  induction ms with
  | nil => cases hmem
  | cons m ms ih =>
    have htail := fun hmem => ih hmem fun j hj => huniq j (List.mem_cons_of_mem _ hj)
    cases m with
    | opened k j =>
      by_cases hk : k = n
      · subst hk
        simp [lastOpened, huniq j List.mem_cons_self]
      · simpa [lastOpened, hk] using htail (by simpa [Ne.symm hk] using hmem)
    | closed k j => simpa [lastOpened] using htail (by simpa using hmem)

theorem lastClosed_eq_some {n i : Nat} {ms : List Mark} (hmem : .closed n i ∈ ms)
    (huniq : ∀ j, .closed n j ∈ ms → j = i) : lastClosed n ms = some i := by
  induction ms with
  | nil => cases hmem
  | cons m ms ih =>
    have htail := fun hmem => ih hmem fun j hj => huniq j (List.mem_cons_of_mem _ hj)
    cases m with
    | closed k j =>
      by_cases hk : k = n
      · subst hk
        simp [lastClosed, huniq j List.mem_cons_self]
      · simpa [lastClosed, hk] using htail (by simpa [Ne.symm hk] using hmem)
    | opened k j => simpa [lastClosed] using htail (by simpa using hmem)

theorem span?_eq_some {walk : Walk} {n i j : Nat} (hi : ∀ k, .opened n k ∈ walk.marks ↔ k = i)
    (hj : ∀ k, .closed n k ∈ walk.marks ↔ k = j) : walk.span? n = some (i, j) := by
  rw [Walk.span?, lastOpened_eq_some ((hi i).2 rfl) fun k => (hi k).1,
    lastClosed_eq_some ((hj j).2 rfl) fun k => (hj k).1]

end Regex

namespace PatternPiece

open Regex

variable {pieces : List PatternPiece} {name : Option String} {type : Option ParameterType}
  {raw : List Char} {raws : List (List Char)} {n i : Nat}

theorem lt_index_of_mem_marks {m : Mark} (h : m ∈ marks n i pieces raws) : n < m.index := by
  fun_induction marks n i pieces raws with
  | case1 n i c pieces raws ih => exact ih h
  | case2 n i name type pieces raw raws ih =>
    rcases List.mem_cons.1 h with rfl | h
    · exact Nat.lt_succ_self n
    rcases List.mem_cons.1 h with rfl | h
    · exact Nat.lt_succ_self n
    exact Nat.lt_of_succ_lt (ih h)
  | case3 => cases h

theorem opened_mem_marks_iff {k : Nat} :
    .opened (n + 1) k ∈ marks n i (.placeholder name type :: pieces) (raw :: raws) ↔ k = i := by
  have hlater : Mark.opened (n + 1) k ∉ marks (n + 1) (i + raw.length) pieces raws :=
    fun hm => Nat.lt_irrefl _ (lt_index_of_mem_marks hm)
  simp [marks, hlater]

theorem closed_mem_marks_iff {k : Nat} :
    .closed (n + 1) k ∈ marks n i (.placeholder name type :: pieces) (raw :: raws) ↔
      k = i + raw.length := by
  have hlater : Mark.closed (n + 1) k ∉ marks (n + 1) (i + raw.length) pieces raws :=
    fun hm => Nat.lt_irrefl _ (lt_index_of_mem_marks hm)
  simp [marks, hlater]

/-- The marks of later groups are those that the later pieces set. -/
theorem mem_marks_placeholder_iff {m : Mark} (hm : n + 1 < m.index) :
    m ∈ marks n i (.placeholder name type :: pieces) (raw :: raws) ↔
      m ∈ marks (n + 1) (i + raw.length) pieces raws := by
  have hopened : m ≠ .opened (n + 1) i := by
    rintro rfl
    exact Nat.lt_irrefl _ hm
  have hclosed : m ≠ .closed (n + 1) (i + raw.length) := by
    rintro rfl
    exact Nat.lt_irrefl _ hm
  simp [marks, hopened, hclosed]

/-- The arguments lie in the text, which begins at byte `n`, as the pieces say: there is one for
each placeholder, in order and with its name, its text is one that the placeholder may stand for,
and the literals lie between them. -/
inductive Lays : List PatternPiece → Nat → List Argument → List Char → Prop where
  | nil {n : Nat} : Lays [] n [] []
  | literal {n : Nat} {c : Char} {pieces : List PatternPiece} {args : List Argument}
      {w : List Char} (h : Lays pieces (n + c.utf8Size) args w) :
      Lays (.literal c :: pieces) n args (c :: w)
  | placeholder {type : Option ParameterType} {pieces : List PatternPiece} {a : Argument}
      {args : List Argument} {w : List Char} (hraw : ParameterType.Allows type a.raw.toList)
      (hstop : a.stop = a.start + Text.byteLength a.raw.toList)
      (h : Lays pieces a.stop args w) :
      Lays (.placeholder a.name type :: pieces) a.start (a :: args) (a.raw.toList ++ w)

variable {args : List Argument}

theorem lays_nil_iff {w : List Char} : Lays [] n args w ↔ args = [] ∧ w = [] := by
  constructor
  · rintro ⟨⟩
    exact ⟨rfl, rfl⟩
  · rintro ⟨rfl, rfl⟩
    exact .nil

theorem lays_literal_iff {c : Char} {w : List Char} :
    Lays (.literal c :: pieces) n args w ↔
      ∃ v, w = c :: v ∧ Lays pieces (n + c.utf8Size) args v := by
  constructor
  · intro h
    cases h with
    | literal h => exact ⟨_, rfl, h⟩
  · rintro ⟨v, rfl, h⟩
    exact .literal h

theorem lays_placeholder_iff {w : List Char} : Lays (.placeholder name type :: pieces) n args w ↔
    ∃ a rest v, args = a :: rest ∧ w = a.raw.toList ++ v ∧ a.name = name ∧ a.start = n ∧
      a.stop = n + Text.byteLength a.raw.toList ∧ ParameterType.Allows type a.raw.toList ∧
      Lays pieces a.stop rest v := by
  constructor
  · intro h
    cases h with
    | placeholder hraw hstop h => exact ⟨_, _, _, rfl, rfl, rfl, rfl, hstop, hraw, h⟩
  · rintro ⟨a, rest, v, rfl, rfl, rfl, rfl, hstop, hraw, h⟩
    exact .placeholder hraw hstop h

theorem Lays.covers {w : List Char} (h : Lays pieces n args w) :
    Covers pieces (args.map fun a => a.raw.toList) w := by
  induction h with
  | nil => exact .nil
  | literal _ ih => exact .literal ih
  | placeholder hraw _ _ ih => exact .placeholder hraw ih

theorem Lays.isPartOf {w : List Char} (h : Lays pieces n args w) (before : List Char)
    (hn : n = Text.byteLength before) {a : Argument} (ha : a ∈ args) :
    a.IsPartOf (before ++ w) := by
  induction h generalizing before with
  | nil => cases ha
  | @literal n c pieces args w h ih =>
    have hpart := ih (before ++ [c]) (by simp [hn, Text.byteLength_append]) ha
    simpa using hpart
  | @placeholder type pieces b args w hraw hstop h ih =>
    rcases List.mem_cons.1 ha with rfl | ha
    · exact ⟨before, w, by simp, hn, by rw [hstop, hn, Text.byteLength_append]⟩
    · have hpart := ih (before ++ b.raw.toList)
        (by rw [hstop, hn, Text.byteLength_append]) ha
      simpa using hpart

theorem covers_literals_iff {cs w : List Char} :
    Covers (cs.map .literal) raws w ↔ raws = [] ∧ w = cs := by
  constructor
  · intro h
    induction cs generalizing w with
    | nil =>
      cases h
      exact ⟨rfl, rfl⟩
    | cons c cs ih =>
      cases h with
      | literal h =>
        obtain ⟨rfl, rfl⟩ := ih h
        exact ⟨rfl, rfl⟩
  · rintro ⟨rfl, rfl⟩
    induction w with
    | nil => exact .nil
    | cons c w ih => exact .literal ih

end PatternPiece

namespace StepPattern

open Regex PatternPiece

variable {types : ParameterTypes} {source : String} {p : StepPattern} {pieces : List PatternPiece}

theorem groupNumber?_groupNames {n k : Nat} (h : k < n) :
    groupNumber? (Reader.groupNames n).reverse (groupName k) = some (k + 1) := by
  have hfind : (Reader.groupNames n).reverse.findIdx? (fun m => m == some (groupName k)) =
      some k := by
    simp only [Reader.groupNames, List.reverse_reverse, List.findIdx?_map, Function.comp_def]
    rw [List.findIdx?_eq_some_iff_getElem]
    refine ⟨by simpa using h, by simp, fun j hj => ?_⟩
    simpa using fun heq => absurd (Reader.groupName_injective heq) (Nat.ne_of_lt hj)
  rw [groupNumber?, hfind]
  rfl

/-- The group of a placeholder spans the text that is marked for it. -/
theorem bind_span? {walk : Walk} {names : List (Option String)} {n i : Nat} {name : Option String}
    {type : Option ParameterType} {raw : List Char} {raws : List (List Char)}
    (hname : groupNumber? names (groupName n) = some (n + 1))
    (hmarks : ∀ m : Mark, n < m.index →
      (m ∈ walk.marks ↔ m ∈ marks n i (.placeholder name type :: pieces) (raw :: raws))) :
    (groupNumber? names (groupName n)).bind walk.span? = some (i, i + raw.length) := by
  rw [hname, Option.bind_some]
  exact span?_eq_some
    (fun k => (hmarks (.opened (n + 1) k) (Nat.lt_succ_self n)).trans opened_mem_marks_iff)
    fun k => (hmarks (.closed (n + 1) k) (Nat.lt_succ_self n)).trans closed_mem_marks_iff

/-- The argument of a parameter whose group took part in the match. -/
theorem exists_of_argumentsOf_cons {cs : List Char} {walk : Walk} {index i j : Nat}
    {parameter : Parameter} {parameters : List Parameter} {args : List Argument}
    (hspan : parameter.group.bind walk.span? = some (i, j))
    (h : argumentsOf cs walk index (parameter :: parameters) = .ok args) :
    ∃ value rest, argumentsOf cs walk (index + 1) parameters = .ok rest ∧
      args = ⟨parameter.name, value, String.ofList (Text.slice cs i j), Text.byteOffset cs i,
        Text.byteOffset cs j⟩ :: rest := by
  rw [argumentsOf, hspan] at h
  simp only at h
  split at h
  · cases h
  · rename_i value hvalue
    obtain ⟨rest, hrest, rfl⟩ := exists_of_map_eq_ok h
    exact ⟨value, rest, hrest, rfl⟩

/-- No conversion fails where no type refuses a text. -/
theorem exists_argumentsOf {cs : List Char} {walk : Walk} {index : Nat}
    {parameters : List Parameter}
    (h : ∀ q ∈ parameters, ∀ type ∈ q.type, ∀ raw, ∃ v, type.convert raw = .ok v) :
    ∃ args, argumentsOf cs walk index parameters = .ok args := by
  induction parameters generalizing index with
  | nil => exact ⟨[], rfl⟩
  | cons q rest ih =>
    obtain ⟨hq, hrest⟩ := List.forall_mem_cons.1 h
    obtain ⟨args, hargs⟩ := @ih (index + 1) hrest
    rw [argumentsOf]
    cases q.group.bind walk.span? with
    | none => exact ⟨args, hargs⟩
    | some span =>
      cases htype : q.type with
      | none => exact ⟨_, by simp only [hargs]; rfl⟩
      | some type =>
        obtain ⟨v, hv⟩ := hq type htype (String.ofList (Text.slice cs span.1 span.2))
        exact ⟨_, by simp only [hv, hargs]; rfl⟩

/-- Where no type refuses a text, arguments are taken from every text that is matched. -/
theorem exists_extract?_of_accepts {text : String}
    (h : ∀ q ∈ p.parameters, ∀ type ∈ q.type, ∀ raw, ∃ v, type.convert raw = .ok v)
    (haccepts : p.accepts text = true) : ∃ args, p.extract? text = some (.ok args) := by
  rw [accepts_eq_isSome_extract?] at haccepts
  obtain ⟨result, hresult⟩ := Option.isSome_iff_exists.1 haccepts
  obtain ⟨⟨i, walk⟩, -, rfl⟩ := Option.map_eq_some_iff.1 hresult
  obtain ⟨args, hargs⟩ := @exists_argumentsOf text.toList walk 0 p.parameters h
  exact ⟨args, hargs ▸ hresult⟩

/-- The arguments that are taken from between the marks of a walk lie in the text as the pieces
say. -/
theorem lays_of_argumentsOf {cs w : List Char} {walk : Walk} {names : List (Option String)}
    {n i index : Nat} {raws : List (List Char)} {args : List Argument}
    (hnames : ∀ k, k < n + arity pieces → groupNumber? names (groupName k) = some (k + 1))
    (hmarks : ∀ m : Mark, n < m.index → (m ∈ walk.marks ↔ m ∈ marks n i pieces raws))
    (hcovers : Covers pieces raws w) (hw : cs.drop i = w)
    (hargs : argumentsOf cs walk index (placeholderParameters names n pieces) = .ok args) :
    Lays pieces (Text.byteOffset cs i) args w := by
  induction hcovers generalizing n i index args with
  | nil =>
    cases hargs
    exact .nil
  | @literal c pieces raws w h ih =>
    have hrest : cs.drop (i + 1) = w := by rw [← List.drop_drop, hw, List.drop_one, List.tail_cons]
    have hoffset : Text.byteOffset cs (i + 1) = Text.byteOffset cs i + c.utf8Size := by
      simp [Text.byteOffset_add, hw]
    exact .literal (hoffset ▸ ih hnames hmarks hrest hargs)
  | @placeholder name type pieces raw raws w hraw h ih =>
    have hspan := bind_span? (hnames n (by simp [arity])) hmarks
    rw [placeholderParameters] at hargs
    obtain ⟨value, rest, hrest, rfl⟩ := exists_of_argumentsOf_cons hspan hargs
    have hlays := ih (fun k hk => hnames k (by simp only [arity]; omega))
      (fun m hm => (hmarks m (Nat.lt_of_succ_lt hm)).trans (mem_marks_placeholder_iff hm))
      (by rw [← List.drop_drop, hw, List.drop_left]) hrest
    have hslice : Text.slice cs i (i + raw.length) = raw := by simp [Text.slice, hw]
    have hoffset : Text.byteOffset cs (i + raw.length) =
        Text.byteOffset cs i + Text.byteLength raw := by
      simp [Text.byteOffset_add, hw]
    have hplaced := Lays.placeholder (a := ⟨name, value, String.ofList raw, Text.byteOffset cs i,
      Text.byteOffset cs (i + raw.length)⟩) (by simpa using hraw) (by simpa using hoffset) hlays
    simpa [hslice] using hplaced

/-- What an accepted pattern with placeholders was made of. -/
theorem exists_of_ofPlaceholders (h : ofPlaceholders types source = .ok p) :
    ∃ pieces, PatternPiece.all types source = .ok pieces ∧
      anchored source (String.ofList (body 0 pieces)) = .ok p.regex ∧
      p.parameters = placeholderParameters p.regex.names 0 pieces := by
  rw [ofPlaceholders] at h
  split at h
  · cases h
  · rename_i pieces hpieces
    split at h
    · cases h
    · rename_i r hanchored
      cases h
      exact ⟨pieces, hpieces, hanchored, rfl⟩

theorem source_of_ofPlaceholders (h : ofPlaceholders types source = .ok p) : p.source = source := by
  rw [ofPlaceholders] at h
  split at h
  · cases h
  · split at h
    · cases h
    · cases h
      rfl

/-- A pattern with placeholders of built-in types matches the texts that are covered by what it was
made of. -/
theorem accepts_iff_covers (hbuiltIn : AllBuiltIn pieces)
    (hanchored : anchored source (String.ofList (body 0 pieces)) = .ok p.regex) (text : String) :
    p.accepts text = true ↔ ∃ raws, Covers pieces raws text.toList := by
  obtain ⟨-, htraces⟩ := traces_of_anchored_iff hbuiltIn hanchored
  simp only [accepts, isFoundIn_iff, spans_iff_exists_traces]
  constructor
  · rintro ⟨i, j, hi, ms, hms⟩
    obtain ⟨-, -, raws, hcovers, -⟩ := (htraces _ i j ms hi).1 hms
    exact ⟨raws, hcovers⟩
  · rintro ⟨raws, hcovers⟩
    exact ⟨0, _, Nat.zero_le _, _, (htraces _ 0 _ _ (Nat.zero_le _)).2
      ⟨rfl, rfl, raws, hcovers, rfl⟩⟩

theorem placeholderParameters_literals (names : List (Option String)) (i : Nat) (cs : List Char) :
    placeholderParameters names i (cs.map .literal) = [] := by
  induction cs with
  | nil => rfl
  | cons c cs ih => exact ih

theorem compile_of_caret (h : source.toList.head? = some '^') :
    compile types source = ofRegex source := by
  obtain ⟨cs, hcs⟩ := List.head?_eq_some_iff.1 h
  simp only [compile, hcs]

theorem compile_of_not_caret (h : source.toList.head? ≠ some '^') :
    compile types source = ofPlaceholders types source := by
  rw [compile]
  split
  · rename_i hcs
    rw [hcs] at h
    exact absurd rfl h
  · rfl

end StepPattern

end Rehearsal
