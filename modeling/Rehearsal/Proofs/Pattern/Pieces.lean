import Rehearsal.Proofs.Pattern.Reading

/-!
# The expression of a pattern

`PatternPiece.Covers` says when a text is what the pieces of a pattern say, without a word on
regular expressions. The expression written for the pieces is read as one that covers exactly these
texts and marks where the text of each placeholder lies (`Tracks`, `exists_expression`). Between its
anchors it covers a text only as a whole (`traces_of_anchored_iff`).
-/

namespace Rehearsal

namespace PatternPiece

/-- The text is what the pieces say, with the given texts for the placeholders. -/
inductive Covers : List PatternPiece → List (List Char) → List Char → Prop where
  | nil : Covers [] [] []
  | literal {c : Char} {pieces : List PatternPiece} {raws : List (List Char)} {w : List Char}
      (h : Covers pieces raws w) : Covers (.literal c :: pieces) raws (c :: w)
  | placeholder {name : Option String} {type : Option ParameterType} {pieces : List PatternPiece}
      {raw : List Char} {raws : List (List Char)} {w : List Char}
      (hraw : ParameterType.Allows type raw) (h : Covers pieces raws w) :
      Covers (.placeholder name type :: pieces) (raw :: raws) (raw ++ w)

def AllBuiltIn (pieces : List PatternPiece) : Prop :=
  ∀ name type, .placeholder name (some type) ∈ pieces → type ∈ ParameterType.builtIn

/-- How many bytes the expression of a piece takes at most: so many for each of its characters, and
some for the group of a placeholder. -/
def weight : PatternPiece → Nat
  | .literal _ => 128
  | .placeholder _ type => 1400 * (Regex.Reader.written type).length + 64

/-- How many bytes the expression of the pieces takes at most. -/
def totalWeight (pieces : List PatternPiece) : Nat := (pieces.map weight).sum

def arity : List PatternPiece → Nat
  | [] => 0
  | .literal _ :: pieces => arity pieces
  | .placeholder _ _ :: pieces => arity pieces + 1

/-- The marks that a walk sets where the pieces cover a text from position `i` on, if `n` groups
were opened before. -/
def marks (n i : Nat) : List PatternPiece → List (List Char) → List Regex.Mark
  | .literal _ :: pieces, raws => marks n (i + 1) pieces raws
  | .placeholder _ _ :: pieces, raw :: raws =>
    .opened (n + 1) i :: .closed (n + 1) (i + raw.length) ::
      marks (n + 1) (i + raw.length) pieces raws
  | _, _ => []

theorem covers_nil_iff {raws : List (List Char)} {w : List Char} :
    Covers [] raws w ↔ raws = [] ∧ w = [] := by
  constructor
  · rintro ⟨⟩
    exact ⟨rfl, rfl⟩
  · rintro ⟨rfl, rfl⟩
    exact .nil

theorem covers_literal_iff {c : Char} {pieces : List PatternPiece} {raws : List (List Char)}
    {w : List Char} : Covers (.literal c :: pieces) raws w ↔
      ∃ u, w = c :: u ∧ Covers pieces raws u := by
  constructor
  · rintro ⟨⟩
    exact ⟨_, rfl, ‹_›⟩
  · rintro ⟨u, rfl, h⟩
    exact .literal h

theorem covers_placeholder_iff {name : Option String} {type : Option ParameterType}
    {pieces : List PatternPiece} {raws : List (List Char)} {w : List Char} :
    Covers (.placeholder name type :: pieces) raws w ↔ ∃ raw rest u, raws = raw :: rest ∧
      w = raw ++ u ∧ ParameterType.Allows type raw ∧ Covers pieces rest u := by
  constructor
  · rintro ⟨⟩
    exact ⟨_, _, _, rfl, rfl, ‹_›, ‹_›⟩
  · rintro ⟨raw, rest, u, rfl, rfl, hraw, h⟩
    exact .placeholder hraw h

theorem AllBuiltIn.tail {piece : PatternPiece} {pieces : List PatternPiece}
    (h : AllBuiltIn (piece :: pieces)) : AllBuiltIn pieces :=
  fun name type hmem => h name type (List.mem_cons_of_mem _ hmem)

end PatternPiece

namespace Regex

open PatternPiece Reader

/-! ### Items one after the other -/

theorem ofReversed_append_singleton {items : List Form} (f : Form) (h : items ≠ []) :
    Form.ofReversed (items ++ [f]) = .concat f (Form.ofReversed items) := by
  obtain ⟨a, rest, rfl⟩ := List.exists_cons_of_ne_nil h
  simp [Form.ofReversed]

/-- An item before others is traced before them. -/
theorem exists_meaning_cons {f : Form} {forms : List Form} {r R : Regex} {k l : Nat}
    (hf : f.meaning .default = some (r, .default)) (hr : r.Weighs k)
    (hforms : (Form.ofReversed forms.reverse).meaning .default = some (R, .default))
    (hR : R.Weighs l) :
    ∃ R', (Form.ofReversed (f :: forms).reverse).meaning .default = some (R', .default) ∧
      R'.Weighs (k + l) ∧ ∀ text i j ms, Traces text R' i j ms ↔ Traces text (.seq r R) i j ms := by
  cases forms with
  | nil =>
    obtain rfl : Regex.empty = R := by simpa [Form.meaning] using hforms
    refine ⟨r, hf, hr.mono (Nat.le_add_right ..), fun text i j ms => ?_⟩
    simp [traces_seq_iff, traces_empty_iff]
  | cons g forms =>
    refine ⟨.seq r R, ?_, hr.seq hR, fun text i j ms => Iff.rfl⟩
    rw [List.reverse_cons, ofReversed_append_singleton f (by simp)]
    simp only [Form.meaning, hf, hforms]

/-! ### The expression of pieces -/

theorem body_literal (n : Nat) (c : Char) (pieces : List PatternPiece) :
    StepPattern.body n (.literal c :: pieces) = StepPattern.escape c ++ StepPattern.body n pieces :=
  rfl

theorem body_placeholder (n : Nat) (name : Option String) (type : Option ParameterType)
    (pieces : List PatternPiece) :
    StepPattern.body n (.placeholder name type :: pieces) =
      ("(?P<" ++ StepPattern.groupName n ++ ">").toList ++
        (written type ++ ')' :: StepPattern.body (n + 1) pieces) := by
  cases type <;> simp [StepPattern.body, written]

/-- The expression covers what the pieces cover, and marks the texts of the placeholders, before
which `n` groups were opened. -/
def Tracks (R : Regex) (n : Nat) (pieces : List PatternPiece) : Prop :=
  ∀ cs i j ms, Traces cs.toArray R i j ms ↔
    ∃ raws w, Stretch cs i w j ∧ Covers pieces raws w ∧ ms = marks n i pieces raws

variable {R : Regex} {n : Nat} {pieces : List PatternPiece}

theorem tracks_nil : Tracks .empty n [] := by
  intro cs i j ms
  rw [traces_empty_iff]
  constructor
  · rintro ⟨rfl, rfl⟩
    exact ⟨[], [], stretch_nil_iff.2 rfl, .nil, rfl⟩
  · rintro ⟨_, _, hw, ⟨⟩, rfl⟩
    exact ⟨stretch_nil_iff.1 hw, rfl⟩

theorem Tracks.literal (h : R.Tracks n pieces) (c : Char) :
    Tracks (.seq (.one (.single c)) R) n (.literal c :: pieces) := by
  intro cs i j ms
  simp only [traces_seq_iff, h cs, denotes_one _ cs, CharClass.contains_single]
  constructor
  · rintro ⟨_, _, _, ⟨rfl, _, hc, _, rfl, rfl⟩, ⟨raws, w, hw, hcovers, rfl⟩, rfl⟩
    refine ⟨raws, _, (stretch_append_iff (u := [_])).2 ⟨_, hc, hw⟩, .literal hcovers, ?_⟩
    obtain ⟨-, rfl⟩ := stretch_singleton_iff.1 hc
    rfl
  · rintro ⟨raws, _, hw, hcovers, rfl⟩
    cases hcovers with
    | @literal _ _ _ w hcovers =>
      obtain ⟨k, hc, hw⟩ := (stretch_append_iff (u := [c])).1 hw
      refine ⟨k, _, _, ⟨rfl, [c], hc, c, rfl, rfl⟩, ⟨raws, w, hw, hcovers, rfl⟩, ?_⟩
      obtain ⟨-, rfl⟩ := stretch_singleton_iff.1 hc
      rfl

theorem Tracks.placeholder {r : Regex} {type : Option ParameterType} (h : R.Tracks (n + 1) pieces)
    (hr : r.Denotes (ParameterType.Allows type)) (name : Option String) :
    Tracks (.seq (.group (n + 1) r) R) n (.placeholder name type :: pieces) := by
  intro cs i j ms
  simp only [traces_seq_iff, h cs, traces_group_iff, hr cs]
  constructor
  · rintro ⟨_, _, _, ⟨_, ⟨rfl, raw, hraw, hallows⟩, rfl⟩, ⟨raws, w, hw, hcovers, rfl⟩, rfl⟩
    refine ⟨raw :: raws, raw ++ w, stretch_append_iff.2 ⟨_, hraw, hw⟩,
      .placeholder hallows hcovers, ?_⟩
    obtain rfl := hraw.2
    rfl
  · rintro ⟨_, _, hw, hcovers, rfl⟩
    cases hcovers with
    | @placeholder _ _ _ raw raws w hallows hcovers =>
      obtain ⟨k, hraw, hw⟩ := stretch_append_iff.1 hw
      refine ⟨k, _, _, ⟨_, ⟨rfl, raw, hraw, hallows⟩, rfl⟩, ⟨raws, w, hw, hcovers, rfl⟩, ?_⟩
      obtain rfl := hraw.2
      rfl

/-- What is written for pieces is read as items that track them, are nested no deeper than a group
around a double and take no more memory than all pieces. -/
theorem exists_expression (hbuiltIn : AllBuiltIn pieces) (n : Nat) :
    ∃ (forms : List Form) (R : Regex), (∀ items opened rest,
      read ⟨false, items, [], opened, groupNames n⟩ (StepPattern.body n pieces ++ rest) =
        read ⟨false, forms.reverse ++ items, [], opened, groupNames (n + arity pieces)⟩ rest) ∧
      (Form.ofReversed forms.reverse).meaning .default = some (R, .default) ∧
      R.Tracks n pieces ∧ (∀ f ∈ forms, ∀ within, f.depth within ≤ 8) ∧
      R.Weighs (totalWeight pieces) := by
  induction pieces generalizing n with
  | nil => exact ⟨[], .empty, fun items opened rest => rfl, rfl, tracks_nil, by simp, weighs_empty⟩
  | cons piece pieces ih =>
    cases piece with
    | literal c =>
      obtain ⟨forms, R, hread, hmeaning, htracks, hdepth, hweighs⟩ := ih hbuiltIn.tail n
      obtain ⟨R', hmeaning', hweighs', htraces⟩ := exists_meaning_cons
        (f := .literal ⟨c, false⟩) (r := .one (.single c)) rfl (weighs_single c) hmeaning hweighs
      refine ⟨_, R', fun items opened rest => ?_, hmeaning', fun cs i j ms => ?_,
        List.forall_mem_cons.2 ⟨fun within => Nat.zero_le 8, hdepth⟩, hweighs'⟩
      · rw [body_literal, List.append_assoc, read_escape, hread]
        simp [arity]
      · rw [htraces]
        exact htracks.literal c cs i j ms
    | placeholder name type =>
      obtain ⟨forms, R, hread, hmeaning, htracks, hdepth, hweighs⟩ := ih hbuiltIn.tail (n + 1)
      obtain ⟨inner, r, hinner, hr, hdenotes, hinnerDepth, hwithin⟩ := readsAs_written type (by
        rintro t rfl
        exact hbuiltIn name t List.mem_cons_self)
      obtain ⟨R', hmeaning', hweighs', htraces⟩ := exists_meaning_cons
        (f := .group (.numbered (n + 1)) (Form.ofReversed inner)) (r := .group (n + 1) r)
        (by simp [Form.meaning, hr]) (weighs_group hwithin (n + 1)) hmeaning hweighs
      refine ⟨_, R', fun items opened rest => ?_, hmeaning', fun cs i j ms => ?_,
        List.forall_mem_cons.2 ⟨fun within => by rw [Form.depth]; omega, hdepth⟩, hweighs'⟩
      · rw [body_placeholder, List.append_assoc, List.append_assoc, read_enterNamed,
          List.cons_append, hinner, read_leave, hread]
        simp [arity, Form.ofBranches, Nat.add_assoc, Nat.add_comm 1]
      · rw [htraces]
        exact htracks.placeholder hdenotes name cs i j ms

/-! ### Anchors -/

theorem holds_textStart_iff {text : Array Char} {i : Nat} (hi : i ≤ text.size) :
    Look.textStart.holds text i = true ↔ i = 0 := by
  cases i with
  | zero => simp [Look.holds, Look.before]
  | succ i =>
    have hlt : i < text.size := hi
    simp [Look.holds, Look.before, hlt]

theorem holds_textEnd_iff {text : Array Char} {i : Nat} :
    Look.textEnd.holds text i = true ↔ text.size ≤ i := by
  simp [Look.holds]

/-- An expression between the ends of the text. -/
def between (R : Regex) : Regex := .seq (.look .textStart) (.seq (.enclosed R) (.look .textEnd))

/-- A group between a caret and a dollar sign. -/
theorem meaning_between {f : Form} {R : Regex} {g : Flags}
    (hf : f.meaning .default = some (R, g)) :
    (Form.concat (.assertion .caret)
      (.concat (.group (.plain []) f) (.assertion .dollar))).meaning .default =
        some (R.between, .default) := by
  simp only [Form.meaning, Assertion.meaning, Flags.change, List.foldl_nil, hf]
  rfl

/-- Between the ends of the text an expression covers it only as a whole. -/
theorem traces_between_iff {R : Regex} {text : Array Char} {i j : Nat} {ms : List Mark}
    (hi : i ≤ text.size) : Traces text R.between i j ms ↔
      i = 0 ∧ j = text.size ∧ Traces text R 0 text.size ms := by
  simp only [between, traces_seq_iff, traces_look_iff, traces_enclosed_iff,
    holds_textStart_iff hi, holds_textEnd_iff]
  constructor
  · rintro ⟨_, _, _, ⟨rfl, rfl, rfl⟩, ⟨k, ms, _, hR, ⟨hk, rfl, rfl⟩, rfl⟩, rfl⟩
    obtain rfl : j = text.size := Nat.le_antisymm (hR.le.2 hi) hk
    exact ⟨rfl, rfl, by simpa using hR⟩
  · rintro ⟨rfl, rfl, hR⟩
    exact ⟨0, [], ms, ⟨rfl, rfl, rfl⟩, ⟨_, ms, [], hR, ⟨Nat.le_refl _, rfl, rfl⟩, by simp⟩, rfl⟩

/-- A part of the text from its start on that goes to its end is all of it. -/
theorem stretch_zero_iff {cs w : List Char} {j : Nat} (hj : cs.length ≤ j) :
    Stretch cs 0 w j ↔ w = cs ∧ j = cs.length := by
  constructor
  · rintro ⟨hw, rfl⟩
    have hlength : cs.length ≤ w.length := by omega
    have heq : w = cs := by simpa using hw.eq_of_length_le hlength
    simp [heq]
  · rintro ⟨rfl, rfl⟩
    simp [Stretch]

variable {source body : String} {r : Compiled}

/-- What an accepted expression was read as. -/
theorem exists_of_compile? {text : String} (h : compile? text = some r) :
    ∃ s f, read State.start text.toList = some s ∧
      s.inner.meaning .default = some (r.root, f) ∧ r.names = s.names.reverse := by
  rw [compile?, Form.parse?] at h
  cases hread : read State.start text.toList with
  | none => simp [hread] at h
  | some s =>
    simp only [hread] at h
    split_ifs at h with hlimits
    cases hmeaning : s.inner.meaning .default with
    | none => simp [hmeaning] at h
    | some meant =>
      simp only [hmeaning] at h
      split_ifs at h with hfits
      cases h
      exact ⟨s, _, rfl, hmeaning, rfl⟩

theorem compile?_of_anchored (h : StepPattern.anchored source body = .ok r) :
    compile? ("^(?:" ++ body ++ ")$") = some r := by
  rw [StepPattern.anchored] at h
  split at h
  · cases h
    assumption
  · cases h

/-- The group that stands open between the anchors. -/
def anchorGroup : Opened := ⟨.plain [], [.assertion .caret], [], false⟩

/-- What is read between the anchors is a group between a caret and a dollar sign. -/
theorem read_anchored {w : List Char} {items branches : List Form} {names : List (Option String)}
    (h : read ⟨false, [], [], [anchorGroup], []⟩ (w ++ [')', '$']) =
      read ⟨false, items, branches, [anchorGroup], names⟩ [')', '$']) :
    read State.start ("^(?:" ++ String.ofList w ++ ")$").toList =
      some ⟨false, [.assertion .dollar,
        .group (.plain []) (Form.ofBranches (Form.ofReversed items :: branches)),
        .assertion .caret], [], [], names⟩ := by
  have htext : ("^(?:" ++ String.ofList w ++ ")$").toList =
      '^' :: '(' :: '?' :: ':' :: (w ++ [')', '$']) := by simp
  rw [htext, State.start, read_caret, read_enter]
  exact h.trans (by rw [read_leave, anchorGroup, read_dollar, read_nil _ rfl])

/-- Between its anchors the expression of pieces covers a text only as a whole. -/
theorem traces_of_anchored_iff (hbuiltIn : AllBuiltIn pieces)
    (h : StepPattern.anchored source (String.ofList (StepPattern.body 0 pieces)) = .ok r) :
    r.names = (groupNames (arity pieces)).reverse ∧
      ∀ cs i j ms, i ≤ cs.length → (Traces cs.toArray r.root i j ms ↔
        i = 0 ∧ j = cs.length ∧ ∃ raws, Covers pieces raws cs ∧ ms = marks 0 0 pieces raws) := by
  obtain ⟨forms, R, hread, hmeaning, htracks, -⟩ := exists_expression hbuiltIn 0
  have hstate := read_anchored (hread [] [anchorGroup] [')', '$'])
  obtain ⟨s, f, hs, hinner, hnames⟩ := exists_of_compile? (compile?_of_anchored h)
  obtain rfl := Option.some.inj (hstate.symm.trans hs)
  rw [List.append_nil] at hinner
  obtain ⟨hroot, -⟩ :=
    Prod.mk.inj (Option.some.inj ((meaning_between hmeaning).symm.trans hinner))
  rw [Nat.zero_add] at hnames
  refine ⟨hnames, fun cs i j ms hi => ?_⟩
  rw [← hroot, traces_between_iff (by simpa using hi), htracks cs, List.size_toArray]
  constructor
  · rintro ⟨rfl, rfl, raws, w, hw, hcovers, rfl⟩
    obtain ⟨rfl, -⟩ := (stretch_zero_iff (Nat.le_refl _)).1 hw
    exact ⟨rfl, rfl, raws, hcovers, rfl⟩
  · rintro ⟨rfl, rfl, raws, hcovers, rfl⟩
    exact ⟨rfl, rfl, raws, cs, (stretch_zero_iff (Nat.le_refl _)).2 ⟨rfl, rfl⟩, hcovers, rfl⟩

end Regex

end Rehearsal
