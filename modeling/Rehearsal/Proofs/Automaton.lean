import Mathlib.Algebra.Order.BigOperators.Group.List
import Mathlib.Algebra.Order.Ring.Nat
import Rehearsal.Regex.Meaning

/-!
# How much memory an automaton takes

The automata of an expression are laid out part after part, and each part takes some memory
(`Tree.Within`). Costs add up along a row of parts, which may be joined to longer literals before
(`RowWithin.joinLiterals`). What a class takes is bounded by the byte sequences of its characters,
however many equal states are remembered (`bytes_spread_le`): each state that is still open will be
laid out once, and what that will take is added to the memory taken so far (`Spread.promised`).
-/

namespace Rehearsal

namespace Regex

namespace Memory

variable (m : Memory) (n : Nat)

theorem bytes_add : (m.add n).bytes = m.bytes + 32 * n := by
  simp only [bytes, add, perState]
  omega

theorem bytes_addLinks : (m.addLinks n).bytes = m.bytes + 32 + 8 * n := by
  simp only [bytes, addLinks, perState, perLink]
  omega

theorem bytes_addWays : (m.addWays n).bytes = m.bytes + 4 * n := by
  simp only [bytes, addWays, perWay]
  omega

end Memory

/-! ### Classes read forward -/

namespace OpenState

/-- What the state will take when it is laid out. -/
def promised (s : OpenState) : Nat := 32 + 8 * (s.settled.length + s.underWay.toList.length)

theorem length_settled_settle (s : OpenState) (next : Nat) :
    32 + 8 * (s.settle next).settled.length = s.promised := by
  cases h : s.underWay <;> simp [settle, promised, h]

theorem promised_settle (s : OpenState) (next : Nat) : (s.settle next).promised = s.promised := by
  cases h : s.underWay <;> simp [settle, promised, h]

theorem promised_underWay_le (s : OpenState) (interval : Nat × Nat) :
    OpenState.promised { s with underWay := some interval } ≤ s.promised + 8 := by
  simp [promised]
  omega

end OpenState

namespace Spread

def promisedAll (opened : List OpenState) : Nat := (opened.map OpenState.promised).sum

/-- The memory taken and what the open states will take. -/
def promised (s : Spread) : Nat := s.memory.bytes + promisedAll s.opened

theorem bytes_settle_le (s : Spread) (links : List Link) :
    (s.settle links).1.memory.bytes ≤ s.memory.bytes + (32 + 8 * links.length) := by
  rw [settle]
  dsimp only
  split
  · exact Nat.le_add_right ..
  · dsimp only
    rw [Memory.bytes_addLinks, Nat.add_assoc]

/-- Closing open states keeps what was promised, and one state stays open. -/
theorem closeTo_promised (depth : Nat) {opened : List OpenState} (hne : opened ≠ [])
    (next : Nat) (s : Spread) :
    (s.closeTo depth next opened).promised ≤ s.memory.bytes + promisedAll opened ∧
      (s.closeTo depth next opened).opened ≠ [] := by
  induction opened generalizing next s with
  | nil => exact absurd rfl hne
  | cons top rest ih =>
    rw [closeTo]
    split
    · rename_i hdepth
      have hbytes := s.bytes_settle_le (top.settle next).settled.reverse
      rw [List.length_reverse, OpenState.length_settled_settle] at hbytes
      obtain ⟨hpromised, hopened⟩ := ih (List.ne_nil_of_length_pos (Nat.zero_lt_of_lt hdepth))
        (s.settle (top.settle next).settled.reverse).2
        (s.settle (top.settle next).settled.reverse).1
      refine ⟨hpromised.trans ?_, hopened⟩
      simp only [promisedAll, List.map_cons, List.sum_cons]
      omega
    · exact ⟨by simp [promised, promisedAll, OpenState.promised_settle], by simp⟩

theorem promisedAll_foldl (intervals : List (Nat × Nat)) {opened : List OpenState}
    (hne : opened ≠ []) :
    promisedAll (intervals.foldl (fun opened interval => ⟨[], some interval⟩ :: opened) opened) =
        promisedAll opened + 40 * intervals.length ∧
      intervals.foldl (fun opened interval => ⟨[], some interval⟩ :: opened) opened ≠ [] := by
  induction intervals generalizing opened with
  | nil => exact ⟨rfl, hne⟩
  | cons interval intervals ih =>
    obtain ⟨hpromised, hopened⟩ := @ih (⟨[], some interval⟩ :: opened) (by simp)
    refine ⟨hpromised.trans ?_, hopened⟩
    simp only [promisedAll, List.map_cons, List.sum_cons, List.length_cons, OpenState.promised,
      List.length_nil, Option.toList_some]
    omega

theorem openRest_promised {opened : List OpenState} (hne : opened ≠ [])
    (intervals : List (Nat × Nat)) :
    promisedAll (openRest opened intervals) ≤ promisedAll opened + 40 * intervals.length ∧
      openRest opened intervals ≠ [] := by
  obtain ⟨top, below, rfl⟩ := List.exists_cons_of_ne_nil hne
  cases intervals with
  | nil => exact ⟨Nat.le_refl _, hne⟩
  | cons first rest =>
    obtain ⟨hpromised, hopened⟩ :=
      @promisedAll_foldl rest ({ top with underWay := some first } :: below) (by simp)
    refine ⟨Nat.le_trans (Nat.le_of_eq hpromised) ?_, hopened⟩
    have htop := top.promised_underWay_le first
    simp only [promisedAll, List.map_cons, List.sum_cons, List.length_cons]
    omega

/-- A sequence of intervals adds a state and a link for each of them at most. -/
theorem addSequence_promised (last : Nat) {s : Spread} (hne : s.opened ≠ [])
    (intervals : List (Nat × Nat)) :
    (s.addSequence last intervals).promised ≤ s.promised + 40 * intervals.length ∧
      (s.addSequence last intervals).opened ≠ [] := by
  obtain ⟨hclosed, hopened⟩ := closeTo_promised (shared intervals s.opened.reverse) hne last s
  obtain ⟨hpromised, hnext⟩ := openRest_promised hopened
    (intervals.drop (shared intervals s.opened.reverse))
  refine ⟨?_, hnext⟩
  rw [List.length_drop] at hpromised
  simp only [promised, addSequence] at hclosed ⊢
  omega

theorem foldl_addSequence_promised (last : Nat) {s : Spread} (hne : s.opened ≠ [])
    (sequences : List (List (Nat × Nat))) :
    (sequences.foldl (addSequence last) s).promised ≤
        s.promised + (sequences.map fun q => 40 * q.length).sum ∧
      (sequences.foldl (addSequence last) s).opened ≠ [] := by
  induction sequences generalizing s with
  | nil => exact ⟨Nat.le_refl _, hne⟩
  | cons intervals sequences ih =>
    obtain ⟨hfirst, hopened⟩ := addSequence_promised last hne intervals
    obtain ⟨hrest, hend⟩ := ih hopened
    refine ⟨?_, hend⟩
    simp only [List.foldl_cons, List.map_cons, List.sum_cons]
    omega

theorem bytes_finish_le (last : Nat) {s : Spread} (hne : s.opened ≠ []) :
    (s.finish last).bytes ≤ s.promised := by
  obtain ⟨hclosed, hopened⟩ := closeTo_promised 0 hne last s
  obtain ⟨root, below, hroot⟩ := List.exists_cons_of_ne_nil hopened
  have hbytes := (s.closeTo 0 last s.opened).bytes_settle_le root.settled.reverse
  rw [finish]
  simp only [promised, promisedAll, hroot, List.map_cons, List.sum_cons, OpenState.promised,
    List.length_reverse] at hclosed hbytes ⊢
  omega

end Spread

theorem bytes_spreadForward_le (sequences : List (List (Nat × Nat))) (m : Memory) :
    (spreadForward sequences m).bytes ≤
      m.bytes + 64 + (sequences.map fun q => 40 * q.length).sum := by
  have hstart : (⟨m.add 1, .ofSize 10000, [⟨[], none⟩]⟩ : Spread).promised = m.bytes + 64 := by
    simp [Spread.promised, Spread.promisedAll, OpenState.promised, Memory.bytes_add]
  obtain ⟨hpromised, hopened⟩ := Spread.foldl_addSequence_promised m.states
    (s := ⟨m.add 1, .ofSize 10000, [⟨[], none⟩]⟩) (by simp) sequences
  rw [hstart] at hpromised
  exact (Spread.bytes_finish_le _ hopened).trans hpromised

/-! ### Classes read backward -/

theorem bytes_layBackward_le (m : Memory) (known : Remembered) (state : Nat)
    (intervals : List (Nat × Nat)) :
    (layBackward m known state intervals).1.bytes ≤ m.bytes + (32 * intervals.length + 4) := by
  induction intervals generalizing m known state with
  | nil => exact Nat.le_of_eq (Memory.bytes_addWays ..)
  | cons interval intervals ih =>
    rw [layBackward, List.length_cons]
    split
    · rename_i state' _
      have hrest := ih m known state'
      omega
    · have hrest := ih (m.add 1) (known.put [state, interval.1, interval.2] m.states) m.states
      rw [Memory.bytes_add] at hrest
      omega

theorem bytes_spreadBackward_le (sequences : List (List (Nat × Nat))) (m : Memory) :
    (spreadBackward sequences m).bytes ≤
      m.bytes + 64 + (sequences.map fun q => 32 * q.length + 4).sum := by
  have hfold : ∀ (last : Nat) (sequences : List (List (Nat × Nat))) (p : Memory × Remembered),
      (sequences.foldl (fun p sequence => layBackward p.1 p.2 last sequence) p).1.bytes ≤
        p.1.bytes + (sequences.map fun q => 32 * q.length + 4).sum := by
    intro last sequences
    induction sequences with
    | nil => exact fun p => Nat.le_refl _
    | cons intervals sequences ih =>
      intro p
      have hfirst := bytes_layBackward_le p.1 p.2 last intervals
      have hrest := ih (layBackward p.1 p.2 last intervals)
      simp only [List.foldl_cons, List.map_cons, List.sum_cons]
      omega
  have htotal := hfold (m.states + 1) sequences (m.add 2, .ofSize 1000)
  rw [Memory.bytes_add] at htotal
  exact htotal

/-- What a class takes at most, in either direction. -/
def classBytes (s : Text.Intervals) : Nat :=
  64 + 8 * s.length + ((Text.Utf8.sequencesOf s).map fun q => 40 * q.length + 4).sum

theorem bytes_spread_le (d : Direction) (s : Text.Intervals) (m : Memory) :
    (spread d s m).bytes ≤ m.bytes + classBytes s := by
  have hle : ∀ f : List (Nat × Nat) → Nat, (∀ q, f q ≤ 40 * q.length + 4) →
      ((Text.Utf8.sequencesOf s).map f).sum ≤
        ((Text.Utf8.sequencesOf s).map fun q => 40 * q.length + 4).sum :=
    fun f hf => List.sum_le_sum fun q _ => hf q
  rw [spread, classBytes]
  split
  · rw [Memory.bytes_addLinks, Memory.bytes_add]
    omega
  · cases d with
    | forward =>
      have hforward := bytes_spreadForward_le (Text.Utf8.sequencesOf s) m
      have hcost := hle (fun q => 40 * q.length) fun q => Nat.le_add_right ..
      dsimp only
      omega
    | backward =>
      have hbackward := bytes_spreadBackward_le (Text.Utf8.sequencesOf s) m
      have hcost := hle (fun q => 32 * q.length + 4) fun q => by omega
      dsimp only
      omega

/-! ### Parts -/

theorem Laid.bytes_endAlternative_le (index : Nat) (p : Laid) :
    (p.endAlternative index).bytes ≤ p.joined.bytes + 68 := by
  rw [endAlternative, Memory.bytes_addWays]
  split
  · rw [Memory.bytes_add]
  · omega

theorem Laid.bytes_atLeast_le {lay : Memory → Laid} {k least : Nat}
    (h : ∀ m, (lay m).joined.bytes ≤ m.bytes + k) (hleast : least ≤ 1) (mayBeEmpty : Bool)
    (m : Memory) : (atLeast lay mayBeEmpty least m).joined.bytes ≤ m.bytes + (k + 112) := by
  have hhere := h m
  have hnext := h (m.add 1)
  rw [Memory.bytes_add] at hnext
  obtain rfl | rfl := Nat.le_one_iff_eq_zero_or_eq_one.1 hleast
  · cases mayBeEmpty with
    | false =>
      simp only [atLeast, joined, Memory.bytes_addWays, Bool.false_eq_true, if_false, if_true]
        at hnext ⊢
      omega
    | true =>
      simp only [atLeast, joined, Memory.bytes_add, Memory.bytes_addWays, Bool.false_eq_true,
        if_false, if_true] at hhere ⊢
      omega
  · simp only [atLeast, joined, Memory.bytes_add, Memory.bytes_addWays, if_true] at hhere ⊢
    omega

namespace Tree

variable {a b t : Tree} {k l : Nat}

/-- Wherever the tree is laid out, it takes no more bytes than these. -/
def Within (t : Tree) (k : Nat) : Prop :=
  ∀ d m, (t.lay d none m).joined.bytes ≤ m.bytes + k

theorem Within.mono (h : t.Within k) (hkl : k ≤ l) : t.Within l :=
  fun d m => (h d m).trans (Nat.add_le_add_left hkl _)

section Lay

variable (d : Direction) (m : Memory)

theorem lay_empty : empty.lay d none m = ⟨m.add 1, false⟩ := rfl

theorem lay_literal (cs : List Nat) :
    (literal cs).lay d none m = ⟨m.add (bytesOf d cs).length, false⟩ := rfl

theorem lay_set (s : Text.Intervals) : (set s).lay d none m = ⟨spread d s m, false⟩ := rfl

theorem lay_look (c : Look) : (look c).lay d none m = ⟨m.add 1, false⟩ := rfl

theorem lay_group_forward (n : Nat) (t : Tree) :
    (Tree.group n t).lay .forward none m = ⟨(t.lay .forward none (m.add 1)).joined.add 1, false⟩ :=
  rfl

theorem lay_group_backward (n : Nat) (t : Tree) :
    (Tree.group n t).lay .backward none m = t.lay .backward none m := rfl

theorem lay_optional (greedy : Bool) (t : Tree) :
    (Tree.rounds 0 (some 1) greedy t).lay d none m = Laid.atMostOnce (fun m => t.lay d none m) m :=
  rfl

theorem lay_concat_forward (a b : Tree) : (Tree.concat a b).lay .forward none m =
    b.lay .forward none (a.lay .forward none m).joined := rfl

theorem lay_concat_backward (a b : Tree) : (Tree.concat a b).lay .backward none m =
    a.lay .backward none (b.lay .backward none m).joined := rfl

/-- The alternatives that are left after some others. -/
theorem lay_alternation_some (index : Nat) (a b : Tree) :
    (Tree.alternation a b).lay d (some index) m =
      b.lay d (some (index + 1)) ((a.lay d none m).endAlternative index) := rfl

theorem lay_alternation_none (a b : Tree) (h : all? characters? (a :: b.alternatives) = none) :
    (Tree.alternation a b).lay d none m =
      b.lay d (some 1) ((a.lay d none m).endAlternative 0) := by
  simp only [lay, Option.isNone_none, if_true, h, Option.getD_none, Nat.zero_add]

end Lay

theorem within_empty : empty.Within 32 := fun d m => by
  simp [lay_empty, Laid.joined, Memory.bytes_add]

theorem within_look (c : Look) : (look c).Within 32 := fun d m => by
  simp [lay_look, Laid.joined, Memory.bytes_add]

theorem within_set (s : Text.Intervals) : (set s).Within (classBytes s) := fun d m => by
  simpa [lay_set, Laid.joined] using bytes_spread_le d s m

theorem within_literal_iff {cs : List Nat} :
    (literal cs).Within k ↔ 32 * (cs.flatMap Text.Utf8.encode).length ≤ k := by
  have hlength : ∀ d, (bytesOf d cs).length = (cs.flatMap Text.Utf8.encode).length := fun d => by
    cases d <;> simp [bytesOf]
  simp only [Within, lay_literal, Laid.joined, Memory.bytes_add, hlength, Bool.false_eq_true,
    if_false, Nat.add_le_add_iff_left]
  exact ⟨fun h => h .forward ⟨0, 0⟩, fun h _ _ => h⟩

theorem Within.group (h : t.Within k) (n : Nat) : (Tree.group n t).Within (k + 64) := by
  intro d m
  cases d with
  | forward =>
    have ht := h .forward (m.add 1)
    rw [Memory.bytes_add] at ht
    rw [lay_group_forward, Laid.joined]
    simp only [Memory.bytes_add, Bool.false_eq_true, if_false]
    omega
  | backward =>
    have ht := h .backward m
    rw [lay_group_backward]
    omega

theorem Within.concat (ha : a.Within k) (hb : b.Within l) : (Tree.concat a b).Within (k + l) := by
  intro d m
  cases d with
  | forward =>
    have hfirst := ha .forward m
    have hsecond := hb .forward (a.lay .forward none m).joined
    rw [lay_concat_forward]
    omega
  | backward =>
    have hfirst := hb .backward m
    have hsecond := ha .backward (b.lay .backward none m).joined
    rw [lay_concat_backward]
    omega

/-- Any number of rounds, or at least one. -/
theorem Within.rounds (h : t.Within k) {least : Nat} (hleast : least ≤ 1) (greedy : Bool) :
    (Tree.rounds least none greedy t).Within (k + 112) :=
  fun d m => Laid.bytes_atLeast_le (h d) hleast _ m

theorem Within.optional (h : t.Within k) (greedy : Bool) :
    (Tree.rounds 0 (some 1) greedy t).Within (k + 72) := by
  intro d m
  have ht := h d (m.add 1)
  rw [Memory.bytes_add] at ht
  rw [lay_optional, Laid.atMostOnce, Laid.joined]
  simp only [Memory.bytes_add, Memory.bytes_addWays, Bool.false_eq_true, if_false]
  omega

/-! ### Alternatives -/

/-- As the last one of several alternatives, the tree takes no more bytes than these. -/
def WithinLast (t : Tree) (k : Nat) : Prop :=
  ∀ d index m, (t.lay d (some index) m).joined.bytes ≤ m.bytes + k

theorem Within.last (h : t.Within k) (ht : ∀ a b, t ≠ Tree.alternation a b) :
    t.WithinLast (k + 68) := by
  intro d index m
  have hended : t.lay d (some index) m = Laid.ended (some index) (t.lay d none m) := by
    cases t with
    | alternation a b => exact absurd rfl (ht a b)
    | _ => rfl
  have hbytes := (t.lay d none m).bytes_endAlternative_le index
  have hnone := h d m
  rw [hended, Laid.ended, Laid.joined]
  dsimp only
  simp only [Bool.false_eq_true, if_false]
  omega

theorem Within.alternation_last (ha : a.Within k) (hb : b.WithinLast l) :
    (Tree.alternation a b).WithinLast (k + 68 + l) := by
  intro d index m
  have hfirst := ha d m
  have hend := (a.lay d none m).bytes_endAlternative_le index
  have hrest := hb d (index + 1) ((a.lay d none m).endAlternative index)
  rw [lay_alternation_some]
  omega

/-- Alternatives of which the first one is no literal. -/
theorem Within.alternation (ha : a.Within k) (hb : b.WithinLast l) (hne : a.characters? = none) :
    (Tree.alternation a b).Within (k + 68 + l) := by
  intro d m
  have hfirst := ha d m
  have hend := (a.lay d none m).bytes_endAlternative_le 0
  have hrest := hb d 1 ((a.lay d none m).endAlternative 0)
  have hliterals : all? characters? (a :: b.alternatives) = none := by simp [all?, hne]
  rw [lay_alternation_none d m a b hliterals]
  omega

/-! ### Rows -/

/-- Each tree is a single item, and one after the other they take no more bytes than these. -/
inductive RowWithin : List Tree → Nat → Prop where
  | nil {k : Nat} : RowWithin [] k
  | cons {t : Tree} {ts : List Tree} {k l : Nat} (hitem : t.items = [t]) (ht : t.Within k)
      (h : RowWithin ts l) : RowWithin (t :: ts) (k + l)

variable {ts us : List Tree}

theorem RowWithin.mono (h : RowWithin ts k) (hkl : k ≤ l) : RowWithin ts l := by
  induction h generalizing l with
  | nil => exact .nil
  | @cons t ts k m hitem ht h ih =>
    obtain ⟨n, rfl⟩ := Nat.exists_eq_add_of_le hkl
    rw [Nat.add_assoc]
    exact .cons hitem ht (ih (Nat.le_add_right ..))

theorem RowWithin.append (hts : RowWithin ts k) (hus : RowWithin us l) :
    RowWithin (ts ++ us) (k + l) := by
  induction hts with
  | nil => exact hus.mono (Nat.le_add_left ..)
  | cons hitem ht _ ih =>
    rw [Nat.add_assoc]
    exact .cons hitem ht ih

/-- Literals that are joined take what they took before. -/
theorem RowWithin.joinLiterals (h : RowWithin ts k) : RowWithin (Tree.joinLiterals ts) k := by
  induction h with
  | nil => exact .nil
  | @cons t ts k l hitem ht h ih =>
    cases t with
    | literal cs =>
      rw [Tree.joinLiterals]
      split
      · rename_i ds more hmore
        rw [hmore] at ih
        cases ih with
        | @cons _ _ m n _ hds hrest =>
          rw [← Nat.add_assoc]
          refine .cons rfl (within_literal_iff.2 ?_) hrest
          rw [List.flatMap_append, List.length_append, Nat.mul_add]
          exact Nat.add_le_add (within_literal_iff.1 ht) (within_literal_iff.1 hds)
      · exact .cons rfl ht ih
    | _ => exact .cons hitem ht ih

theorem RowWithin.stringItems (h : RowWithin ts k) :
    (Tree.stringItems ts).Within (k + 32) ∧ (Tree.stringItems ts).items = ts := by
  induction h with
  | nil => exact ⟨within_empty.mono (Nat.le_add_left ..), rfl⟩
  | @cons t ts k l hitem ht h ih =>
    cases ts with
    | nil => exact ⟨ht.mono (by omega), hitem⟩
    | cons u us =>
      rw [Nat.add_assoc]
      exact ⟨ht.concat ih.1, congrArg (t :: ·) ih.2⟩

end Tree

/-! ### Expressions -/

/-- The simplified expression is a row that takes no more bytes than these. -/
def Weighs (r : Regex) (k : Nat) : Prop :=
  ∃ ts, r.tree = Tree.stringItems ts ∧ Tree.RowWithin ts k

variable {a b r : Regex} {k l : Nat}

theorem Weighs.mono (h : r.Weighs k) (hkl : k ≤ l) : r.Weighs l := by
  obtain ⟨ts, htree, hts⟩ := h
  exact ⟨ts, htree, hts.mono hkl⟩

theorem Weighs.within (h : r.Weighs k) : r.tree.Within (k + 32) := by
  obtain ⟨ts, htree, hts⟩ := h
  rw [htree]
  exact hts.stringItems.1

theorem Weighs.seq (ha : a.Weighs k) (hb : b.Weighs l) : (Regex.seq a b).Weighs (k + l) := by
  obtain ⟨ts, hts, htsWithin⟩ := ha
  obtain ⟨us, hus, husWithin⟩ := hb
  have htree : (Regex.seq a b).tree = Tree.inRow [a.tree, b.tree] := rfl
  refine ⟨Tree.joinLiterals (ts ++ us), ?_, (htsWithin.append husWithin).joinLiterals⟩
  rw [htree, hts, hus, Tree.inRow]
  simp [htsWithin.stringItems.2, husWithin.stringItems.2]

theorem weighs_of_item (hitem : r.tree.items = [r.tree]) (h : r.tree.Within k) : r.Weighs k :=
  ⟨[r.tree], rfl, @Tree.RowWithin.cons _ _ k 0 hitem h .nil⟩

theorem weighs_empty : Weighs .empty k := ⟨[], rfl, .nil⟩

theorem weighs_look (c : Look) : Weighs (.look c) 32 :=
  weighs_of_item rfl (Tree.within_look c)

theorem Weighs.enclosed (h : r.Weighs k) : (Regex.enclosed r).Weighs k := h

theorem weighs_group (h : r.tree.Within k) (n : Nat) : (Regex.group n r).Weighs (k + 64) :=
  weighs_of_item rfl (h.group n)

/-- An expression that does not take too much is accepted. -/
theorem Weighs.fits (h : r.Weighs k) (hk : k + 240 ≤ Memory.limit) : r.fits = true := by
  have hfront : ∀ isFixed : Bool, (if isFixed then Memory.add ⟨0, 0⟩ 1
      else ((Memory.add ⟨0, 0⟩ 2).addLinks 1).addWays 2).bytes ≤ 112 := by decide
  have hforward : (r.tree.memory .forward).bytes ≤ k + 240 := by
    have hlaid := h.within .forward ((if r.tree.beginsAtStart then Memory.add ⟨0, 0⟩ 1
      else ((Memory.add ⟨0, 0⟩ 2).addLinks 1).addWays 2).add 1)
    have hbegin := hfront r.tree.beginsAtStart
    rw [Memory.bytes_add] at hlaid
    rw [Tree.memory]
    simp only [Memory.bytes_add]
    omega
  have hbackward : (r.tree.memory .backward).bytes ≤ k + 240 := by
    have hlaid := h.within .backward (if r.tree.endsAtEnd then Memory.add ⟨0, 0⟩ 1
      else ((Memory.add ⟨0, 0⟩ 2).addLinks 1).addWays 2)
    have hend := hfront r.tree.endsAtEnd
    rw [Tree.memory]
    simp only [Memory.bytes_add]
    omega
  simp only [Regex.fits, Memory.isOver, Bool.and_eq_true, Bool.not_eq_true',
    decide_eq_false_iff_not, Nat.not_lt]
  omega

end Regex

end Rehearsal
