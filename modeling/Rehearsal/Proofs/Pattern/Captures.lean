import Rehearsal.Proofs.Pattern.Placement

/-!
# The arguments of the groups of an expression

A group of an expression may take part in a match several times, or not at all. Where it does, the
last time lies within the match (`LastSpan`, `exists_lastSpan`), and the argument that is taken from
the group is the text there (`Captures`, `exists_captures`).
-/

namespace Rehearsal

namespace Regex

/-- The group was opened for the last time at position `i`, and after that closed for the last time
at position `j`. -/
def LastSpan (ms : List Mark) (n i j : Nat) : Prop :=
  ∃ before inside after, ms = before ++ .opened n i :: (inside ++ .closed n j :: after) ∧
    (∀ k, .opened n k ∉ inside ++ after) ∧ ∀ k, .closed n k ∉ after

/-- The group has taken no part. -/
def IsAbsent (ms : List Mark) (n : Nat) : Prop := ∀ m ∈ ms, m.index ≠ n

variable {text : Array Char} {r : Regex} {i j n k l : Nat} {ms ns : List Mark} {m : Mark}

theorem IsAbsent.opened_notMem (h : IsAbsent ms n) (k : Nat) : .opened n k ∉ ms :=
  fun hmem => h _ hmem rfl

theorem IsAbsent.closed_notMem (h : IsAbsent ms n) (k : Nat) : .closed n k ∉ ms :=
  fun hmem => h _ hmem rfl

theorem IsAbsent.append (hms : IsAbsent ms n) (hns : IsAbsent ns n) : IsAbsent (ms ++ ns) n :=
  List.forall_mem_append.2 ⟨hms, hns⟩

/-- Marks of other groups may come after the last span. -/
theorem LastSpan.append (h : LastSpan ms n k l) (hns : IsAbsent ns n) :
    LastSpan (ms ++ ns) n k l := by
  obtain ⟨before, inside, after, rfl, hopened, hclosed⟩ := h
  refine ⟨before, inside, after ++ ns, by simp, fun i hmem => ?_, fun i hmem => ?_⟩
  · rw [← List.append_assoc] at hmem
    exact (List.mem_append.1 hmem).elim (hopened i) (hns.opened_notMem i)
  · exact (List.mem_append.1 hmem).elim (hclosed i) (hns.closed_notMem i)

/-- Anything may come before the last span. -/
theorem LastSpan.append_left (h : LastSpan ns n k l) (ms : List Mark) :
    LastSpan (ms ++ ns) n k l := by
  obtain ⟨before, inside, after, rfl, hopened, hclosed⟩ := h
  exact ⟨ms ++ before, inside, after, by simp, hopened, hclosed⟩

/-- A group inside itself ends where the outer one ends. -/
theorem LastSpan.closed (h : LastSpan ms n k l) (j : Nat) :
    LastSpan (ms ++ [.closed n j]) n k j := by
  obtain ⟨before, inside, after, rfl, hopened, -⟩ := h
  refine ⟨before, inside ++ .closed n l :: after, [], by simp, fun i hmem => ?_, by simp⟩
  exact hopened i (by simpa using hmem)

/-- Where a group has a last span among the marks, if it has taken part. -/
def Settled (ms : List Mark) (n i j : Nat) : Prop :=
  IsAbsent ms n ∨ ∃ k l, i ≤ k ∧ k ≤ l ∧ l ≤ j ∧ LastSpan ms n k l

theorem Settled.append {i k j : Nat} (hms : Settled ms n i k) (hns : Settled ns n k j)
    (hik : i ≤ k) (hkj : k ≤ j) : Settled (ms ++ ns) n i j := by
  rcases hns with hns | ⟨p, q, hp, hpq, hq, hns⟩
  · rcases hms with hms | ⟨p, q, hp, hpq, hq, hms⟩
    · exact .inl (hms.append hns)
    · exact .inr ⟨p, q, hp, hpq, Nat.le_trans hq hkj, hms.append hns⟩
  · exact .inr ⟨p, q, Nat.le_trans hik hp, hpq, hq, hns.append_left ms⟩

/-- Of each group that has taken part the last span lies within what is covered. -/
theorem Traces.settled (h : Traces text r i j ms) (n : Nat) : Settled ms n i j := by
  induction h with
  | empty i => exact .inl (by simp [IsAbsent])
  | one _ _ => exact .inl (by simp [IsAbsent])
  | look _ => exact .inl (by simp [IsAbsent])
  | @group m r i j ms h ih =>
    by_cases hm : m = n
    · subst hm
      rcases ih with hms | ⟨p, q, hp, hpq, hq, hms⟩
      · exact .inr ⟨i, j, Nat.le_refl i, h.le.1, Nat.le_refl j, [], ms, [], rfl,
          by simpa using hms.opened_notMem, by simp⟩
      · exact .inr ⟨p, j, hp, Nat.le_trans hpq hq, Nat.le_refl j,
          (hms.closed j).append_left [.opened m i]⟩
    · have hopened : Settled [.opened m i] n i i := .inl (List.forall_mem_singleton.2 hm)
      have hclosed : Settled [.closed m j] n j j := .inl (List.forall_mem_singleton.2 hm)
      exact hopened.append (ih.append hclosed h.le.1 (Nat.le_refl j)) (Nat.le_refl i) h.le.1
  | enclosed _ ih => exact ih
  | seq ha hb iha ihb => exact iha.append ihb ha.le.1 hb.le.1
  | altLeft _ ih => exact ih
  | altRight _ ih => exact ih
  | roundsNone => exact .inl (by simp [IsAbsent])
  | roundsMore _ h hs ih ihs => exact ih.append ihs h.le.1 hs.le.1

/-! ### What a walk says of its groups -/

theorem lastOpened_append_of_notMem (h : ∀ k, .opened n k ∉ ms) (ns : List Mark) :
    lastOpened n (ms ++ ns) = lastOpened n ns := by
  induction ms with
  | nil => rfl
  | cons m ms ih =>
    have hms : ∀ k, .opened n k ∉ ms := fun k hk => h k (List.mem_cons_of_mem _ hk)
    cases m with
    | opened p i =>
      have hp : p ≠ n := fun heq => h i (by simp [heq])
      simpa [lastOpened, hp] using ih hms
    | closed p i => simpa [lastOpened] using ih hms

theorem lastClosed_append_of_notMem (h : ∀ k, .closed n k ∉ ms) (ns : List Mark) :
    lastClosed n (ms ++ ns) = lastClosed n ns := by
  induction ms with
  | nil => rfl
  | cons m ms ih =>
    have hms : ∀ k, .closed n k ∉ ms := fun k hk => h k (List.mem_cons_of_mem _ hk)
    cases m with
    | closed p i =>
      have hp : p ≠ n := fun heq => h i (by simp [heq])
      simpa [lastClosed, hp] using ih hms
    | opened p i => simpa [lastClosed] using ih hms

variable {walk : Walk}

theorem span?_eq_none_of_isAbsent (h : IsAbsent walk.marks.reverse n) : walk.span? n = none := by
  have hopened : ∀ k, .opened n k ∉ walk.marks := fun k hk =>
    h.opened_notMem k (List.mem_reverse.2 hk)
  have hnone := lastOpened_append_of_notMem hopened []
  rw [List.append_nil] at hnone
  rw [Walk.span?, hnone]
  rfl

theorem span?_eq_some_of_lastSpan (h : LastSpan walk.marks.reverse n i j) :
    walk.span? n = some (i, j) := by
  obtain ⟨before, inside, after, hmarks, hopened, hclosed⟩ := h
  have hopened' : lastOpened n walk.marks = some i := by
    have heq : walk.marks = (after.reverse ++ .closed n j :: inside.reverse) ++
        .opened n i :: before.reverse := by
      rw [← List.reverse_reverse walk.marks, hmarks]
      simp
    rw [heq, lastOpened_append_of_notMem (by simpa [and_comm, or_comm] using hopened)]
    simp [lastOpened]
  have hclosed' : lastClosed n walk.marks = some j := by
    have heq : walk.marks = after.reverse ++
        (.closed n j :: (inside.reverse ++ .opened n i :: before.reverse)) := by
      rw [← List.reverse_reverse walk.marks, hmarks]
      simp
    rw [heq, lastClosed_append_of_notMem (by simpa using hclosed)]
    simp [lastClosed]
  rw [Walk.span?, hopened', hclosed']

end Regex

namespace StepPattern

open Regex

/-- The arguments are the texts of the groups that have taken part, in the order of the groups,
from the one with number `n` on, whose names are given. The text of a group is that of its last
time, and is taken as it is. -/
inductive Captures (text : List Char) (ms : List Mark) :
    Nat → List (Option String) → List Argument → Prop where
  | nil {n : Nat} : Captures text ms n [] []
  | absent {n : Nat} {name : Option String} {names : List (Option String)} {args : List Argument}
      (habsent : IsAbsent ms n) (h : Captures text ms (n + 1) names args) :
      Captures text ms n (name :: names) args
  | present {n i j : Nat} {names : List (Option String)} {a : Argument} {args : List Argument}
      (hspan : LastSpan ms n i j) (hle : i ≤ j) (hj : j ≤ text.length)
      (hraw : a.raw.toList = Text.slice text i j) (hvalue : a.value = .text a.raw)
      (hstart : a.start = Text.byteOffset text i) (hstop : a.stop = Text.byteOffset text j)
      (h : Captures text ms (n + 1) names args) :
      Captures text ms n (a.name :: names) (a :: args)

/-- The arguments are cut out of the text. -/
theorem Captures.isPartOf {text : List Char} {ms : List Mark} {n : Nat}
    {names : List (Option String)} {args : List Argument} (h : Captures text ms n names args)
    {a : Argument} (ha : a ∈ args) : a.IsPartOf text := by
  induction h with
  | nil => cases ha
  | absent _ _ ih => exact ih ha
  | @present n i j names b args _ hle hj hraw _ hstart hstop _ ih =>
    rcases List.mem_cons.1 ha with rfl | ha
    · have htake : text.take i ++ Text.slice text i j = text.take j := by
        rw [Text.slice, ← List.take_add, Nat.add_sub_cancel' hle]
      refine ⟨text.take i, text.drop j, ?_, hstart, ?_⟩
      · rw [hraw, htake, List.take_append_drop]
      · rw [hraw, htake]
        exact hstop
    · exact ih ha

/-- What is taken from a walk are the texts of the groups, and none of them fails to convert. -/
theorem exists_captures {text : List Char} {walk : Walk}
    (hsettled : ∀ n, Settled walk.marks.reverse n 0 text.length) (n index : Nat)
    (names : List (Option String)) :
    ∃ args, argumentsOf text walk index (groupParameters n names) = .ok args ∧
      Captures text walk.marks.reverse n names args := by
  induction names generalizing n index with
  | nil => exact ⟨[], rfl, .nil⟩
  | cons name names ih =>
    obtain ⟨args, hargs, hcaptures⟩ := ih (n + 1) (index + 1)
    rcases hsettled n with habsent | ⟨i, j, -, hle, hj, hspan⟩
    · refine ⟨args, ?_, .absent habsent hcaptures⟩
      rw [groupParameters, argumentsOf, Option.bind_some, span?_eq_none_of_isAbsent habsent]
      exact hargs
    · let raw := String.ofList (Text.slice text i j)
      let a : Argument :=
        ⟨name, .text raw, raw, Text.byteOffset text i, Text.byteOffset text j⟩
      refine ⟨a :: args, ?_,
        .present (a := a) hspan hle hj String.toList_ofList rfl rfl rfl hcaptures⟩
      rw [groupParameters, argumentsOf, Option.bind_some, span?_eq_some_of_lastSpan hspan]
      simp only [hargs]
      rfl

end StepPattern

end Rehearsal
