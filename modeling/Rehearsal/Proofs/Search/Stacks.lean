import Mathlib.Data.List.Basic
import Rehearsal.Regex.Search

/-!
# The stacks of a search

A search for an expression meets only stacks that consist of a part of the expression and what
follows that part. `allStacks r k` lists them for the stack that begins with `r` and goes on with
`k`: no step leads out of the list but to `k` (`keeps_allStacks`), and the list is not longer than
the size of the expression (`length_allStacks_le`). So there are no more places than a search has
fuel for.
-/

namespace Rehearsal

namespace Regex

variable {text : Array Char} {i : Nat} {marks : List Mark} {k : List Task} {w' : Walk}

/-- What a step at a repetition leads to: the end of the rounds, an unbounded number of further
rounds, or one round less. -/
theorem mem_next_rounds_iff {least : Nat} {most : Option Nat} {greedy : Bool} {r : Regex} :
    w' ∈ Walk.next text ⟨.cover (.rounds least most greedy r) :: k, i, marks⟩ ↔
      w'.position = i ∧ w'.marks = marks ∧
        (least = 0 ∧ w'.tasks = k ∨
          most = none ∧ least ≤ 1 ∧ w'.tasks = .cover r :: .again greedy r :: k ∨
          ¬ (most = none ∧ least ≤ 1) ∧ (0 < least ∨ most ≠ some 0) ∧
            w'.tasks = .cover r ::
              .cover (.rounds (least - 1) (most.map (· - 1)) greedy r) :: k) := by
  obtain ⟨tasks, position, marks'⟩ := w'
  rcases least with _ | _ | least <;> rcases most with _ | _ | most <;> cases greedy <;>
    simp [Walk.next] <;> grind

theorem mem_next_again_iff {greedy : Bool} {r : Regex} :
    w' ∈ Walk.next text ⟨.again greedy r :: k, i, marks⟩ ↔
      w'.position = i ∧ w'.marks = marks ∧
        (w'.tasks = k ∨ w'.tasks = .cover r :: .again greedy r :: k) := by
  obtain ⟨tasks, position, marks'⟩ := w'
  cases greedy <;> simp [Walk.next] <;> grind

theorem mem_next_one_iff {c : CharClass} :
    w' ∈ Walk.next text ⟨.cover (.one c) :: k, i, marks⟩ ↔
      (∃ x, text[i]? = some x ∧ c.contains x = true) ∧ w' = ⟨k, i + 1, marks⟩ := by
  simp only [Walk.next]
  split
  · rename_i x hx
    by_cases hc : c.contains x = true <;> simp [hx, hc]
  · rename_i hnone
    simp [hnone]

theorem mem_next_look_iff {l : Look} :
    w' ∈ Walk.next text ⟨.cover (.look l) :: k, i, marks⟩ ↔
      l.holds text i = true ∧ w' = ⟨k, i, marks⟩ := by
  simp only [Walk.next]
  split <;> simp [*]

/-! ### All stacks -/

/-- The stacks of at most `n` rounds one after the other. -/
def roundStacks (body : List Task → List (List Task)) (greedy : Bool) (r : Regex) (k : List Task) :
    Nat → Nat → Option Nat → List (List Task)
  | 0, least, most => [.cover (.rounds least most greedy r) :: k]
  | n + 1, least, most =>
    (.cover (.rounds least most greedy r) :: k) ::
      (body (.cover (.rounds (least - 1) (most.map (· - 1)) greedy r) :: k) ++
        roundStacks body greedy r k n (least - 1) (most.map (· - 1)))

/-- The stacks met before the expression on top of `k` is covered. -/
def allStacks : Regex → List Task → List (List Task)
  | empty, k => [.cover .empty :: k]
  | one c, k => [.cover (.one c) :: k]
  | look l, k => [.cover (.look l) :: k]
  | group n r, k => (.cover (.group n r) :: k) :: (allStacks r (.close n :: k) ++ [.close n :: k])
  | enclosed r, k => (.cover (.enclosed r) :: k) :: allStacks r k
  | seq a b, k => (.cover (.seq a b) :: k) :: (allStacks a (.cover b :: k) ++ allStacks b k)
  | alt a b, k => (.cover (.alt a b) :: k) :: (allStacks a k ++ allStacks b k)
  | rounds least most greedy r, k =>
    roundStacks (allStacks r) greedy r k (max least (most.getD 0)) least most ++
      (allStacks r (.again greedy r :: k) ++ [.again greedy r :: k])

theorem head_mem_roundStacks (body : List Task → List (List Task)) (greedy : Bool) (r : Regex)
    (k : List Task) (n least : Nat) (most : Option Nat) :
    (.cover (.rounds least most greedy r) :: k) ∈ roundStacks body greedy r k n least most := by
  cases n <;> simp [roundStacks]

theorem head_mem_allStacks (r : Regex) (k : List Task) : (.cover r :: k) ∈ allStacks r k := by
  cases r with
  | rounds least most greedy r => exact List.mem_append_left _ (head_mem_roundStacks ..)
  | empty | one | look | group | enclosed | seq | alt => simp [allStacks]

theorem length_roundStacks_le {body : List Task → List (List Task)} {b : Nat}
    (hbody : ∀ k, (body k).length ≤ b) (greedy : Bool) (r : Regex) (k : List Task)
    (n least : Nat) (most : Option Nat) :
    (roundStacks body greedy r k n least most).length ≤ n * (b + 1) + 1 := by
  induction n generalizing least most with
  | zero => simp [roundStacks]
  | succ n ih =>
    have hlevel := hbody (.cover (.rounds (least - 1) (most.map (· - 1)) greedy r) :: k)
    have hrest := ih (least - 1) (most.map (· - 1))
    rw [roundStacks, List.length_cons, List.length_append, Nat.add_mul]
    omega

theorem length_allStacks_le (r : Regex) (k : List Task) : (allStacks r k).length ≤ r.size := by
  induction r generalizing k with
  | empty | one | look => simp [allStacks, size]
  | group n r ih =>
    have h := ih (.close n :: k)
    simp [allStacks, size]
    omega
  | enclosed r ih =>
    have h := ih k
    simp [allStacks, size]
    omega
  | seq a b iha ihb =>
    have ha := iha (.cover b :: k)
    have hb := ihb k
    simp [allStacks, size]
    omega
  | alt a b iha ihb =>
    have ha := iha k
    have hb := ihb k
    simp [allStacks, size]
    omega
  | rounds least most greedy r ih =>
    have hrounds := length_roundStacks_le ih greedy r k (max least (most.getD 0)) least most
    have hagain := ih (.again greedy r :: k)
    have hle : max least (most.getD 0) ≤ max least (most.getD 1) := by
      cases most with
      | none => exact Nat.max_le.2 ⟨Nat.le_max_left _ _, Nat.zero_le _⟩
      | some m => exact Nat.le_refl _
    have hmul := Nat.mul_le_mul_right (r.size + 2) (Nat.add_le_add_right hle 1)
    have hsplit : (max least (most.getD 0) + 1) * (r.size + 2) =
        max least (most.getD 0) * (r.size + 1) + max least (most.getD 0) + (r.size + 2) := by
      rw [Nat.add_mul, Nat.mul_add _ (r.size) 2, Nat.mul_add _ (r.size) 1]
      omega
    rw [allStacks, size]
    simp only [List.length_append, List.length_singleton]
    omega

/-! ### Where steps lead -/

/-- A step from one of the stacks leads to one of them, or to an exit. -/
def Keeps (text : Array Char) (i : Nat) (marks : List Mark) (ss exits : List (List Task)) : Prop :=
  ∀ s ∈ ss, ∀ w' ∈ Walk.next text ⟨s, i, marks⟩, w'.tasks ∈ ss ∨ w'.tasks ∈ exits

namespace Keeps

variable {s : List Task} {ss ts exits exits' : List (List Task)}

theorem singleton (h : ∀ w' ∈ Walk.next text ⟨s, i, marks⟩, w'.tasks ∈ exits) :
    Keeps text i marks [s] exits :=
  List.forall_mem_singleton.2 fun w' hw => .inr (h w' hw)

theorem cons (h : ∀ w' ∈ Walk.next text ⟨s, i, marks⟩, w'.tasks ∈ ss ∨ w'.tasks ∈ exits)
    (hss : Keeps text i marks ss exits) : Keeps text i marks (s :: ss) exits :=
  List.forall_mem_cons.2 ⟨fun w' hw => (h w' hw).imp_left (List.mem_cons_of_mem s),
    fun s' hs' w' hw => (hss s' hs' w' hw).imp_left (List.mem_cons_of_mem s)⟩

/-- The exits of some stacks may be stacks that come after them. -/
theorem append (hss : Keeps text i marks ss exits') (hts : Keeps text i marks ts exits)
    (hexits : ∀ s ∈ exits', s ∈ ts ∨ s ∈ exits) : Keeps text i marks (ss ++ ts) exits := by
  refine List.forall_mem_append.2 ⟨fun s hs w' hw => ?_, fun s hs w' hw => ?_⟩
  · rcases hss s hs w' hw with hmem | hexit
    · exact .inl (List.mem_append_left _ hmem)
    · exact (hexits _ hexit).imp_left (List.mem_append_right _)
  · exact (hts s hs w' hw).imp_left (List.mem_append_right _)

/-- An exit that is one of the stacks is none. -/
theorem enclose (hss : Keeps text i marks ss exits') (hexits : ∀ s ∈ exits', s ∈ ss ∨ s ∈ exits) :
    Keeps text i marks ss exits := fun s hs w' hw =>
  (hss s hs w' hw).elim .inl (hexits w'.tasks)

end Keeps

/-- A step at a repetition with at most `n` rounds, if they are bounded, leads to the end, to the
rounds that are not counted, or to one of the `n` rounds. -/
theorem next_rounds {n least : Nat} {most : Option Nat} {greedy : Bool} {r : Regex}
    (hn : max least (most.getD 0) ≤ n)
    (hw : w' ∈ Walk.next text ⟨.cover (.rounds least most greedy r) :: k, i, marks⟩) :
    w'.tasks ∈ [.cover r :: .again greedy r :: k, k] ∨ 0 < n ∧
      w'.tasks = .cover r :: .cover (.rounds (least - 1) (most.map (· - 1)) greedy r) :: k := by
  obtain ⟨-, -, ⟨-, hk⟩ | ⟨-, -, hagain⟩ | ⟨hbounded, hmore, hround⟩⟩ := mem_next_rounds_iff.1 hw
  · exact .inl (by simp [hk])
  · exact .inl (by simp [hagain])
  · refine .inr ⟨Nat.pos_of_ne_zero fun hzero => ?_, hround⟩
    rcases most with _ | most <;> simp at hbounded hmore hn <;> omega

/-- No step leads out of the rounds but to those that are not counted, or past them. -/
theorem keeps_roundStacks {greedy : Bool} {r : Regex}
    (hbody : ∀ k, Keeps text i marks (allStacks r k) [k]) {n least : Nat} {most : Option Nat}
    (hn : max least (most.getD 0) ≤ n) :
    Keeps text i marks (roundStacks (allStacks r) greedy r k n least most)
      [.cover r :: .again greedy r :: k, k] := by
  induction n generalizing least most with
  | zero =>
    refine .singleton fun w' hw => ?_
    exact (next_rounds hn hw).resolve_right fun hround => Nat.lt_irrefl 0 hround.1
  | succ n ih =>
    have hlater : max (least - 1) ((most.map (· - 1)).getD 0) ≤ n := by
      cases most <;> simp at hn ⊢ <;> omega
    refine .cons (fun w' hw => ?_) ((hbody _).append (ih hlater) fun s hs => ?_)
    · rcases next_rounds hn hw with hexit | ⟨-, hround⟩
      · exact .inr hexit
      · rw [hround]
        exact .inl (List.mem_append_left _ (head_mem_allStacks ..))
    · rw [List.mem_singleton.1 hs]
      exact .inl (head_mem_roundStacks ..)

/-- No step leads out of the stacks of an expression but to what follows it. -/
theorem keeps_allStacks (r : Regex) (k : List Task) :
    Keeps text i marks (allStacks r k) [k] := by
  induction r generalizing k with
  | empty => exact .singleton (by simp [Walk.next])
  | one c =>
    refine .singleton fun w' hw => ?_
    obtain ⟨-, rfl⟩ := mem_next_one_iff.1 hw
    exact List.mem_singleton_self k
  | look l =>
    refine .singleton fun w' hw => ?_
    obtain ⟨-, rfl⟩ := mem_next_look_iff.1 hw
    exact List.mem_singleton_self k
  | group n r ih =>
    have hclose : Keeps text i marks [.close n :: k] [k] := .singleton (by simp [Walk.next])
    exact .cons (by simp [Walk.next, head_mem_allStacks])
      ((ih (.close n :: k)).append hclose (by simp))
  | enclosed r ih => exact .cons (by simp [Walk.next, head_mem_allStacks]) (ih k)
  | seq a b iha ihb =>
    exact .cons (by simp [Walk.next, head_mem_allStacks])
      ((iha (.cover b :: k)).append (ihb k) (by simp [head_mem_allStacks]))
  | alt a b iha ihb =>
    exact .cons (by simp [Walk.next, head_mem_allStacks])
      ((iha k).append (ihb k) fun s hs => .inr hs)
  | rounds least most greedy r ih =>
    have hagain : Keeps text i marks [.again greedy r :: k]
        [.cover r :: .again greedy r :: k, k] := by
      refine .singleton fun w' hw => ?_
      obtain ⟨-, -, heq | heq⟩ := mem_next_again_iff.1 hw <;> simp [heq]
    -- a further round leads back to the stacks of the body
    have hrounds : Keeps text i marks (allStacks r (.again greedy r :: k) ++ [.again greedy r :: k])
        [k] :=
      ((ih _).append hagain (by simp)).enclose (by simp [head_mem_allStacks])
    exact (keeps_roundStacks ih (Nat.le_refl _)).append hrounds (by simp [head_mem_allStacks])

theorem position_le_of_next {w : Walk} (hw : w' ∈ w.next text) (hle : w.position ≤ text.size) :
    w'.position ≤ text.size := by
  obtain ⟨tasks, position, marks⟩ := w
  cases tasks with
  | nil => cases hw
  | cons t k =>
    cases t with
    | again greedy r => rwa [(mem_next_again_iff.1 hw).1]
    | close n =>
      obtain rfl := List.mem_singleton.1 hw
      exact hle
    | cover r =>
      cases r with
      | one c =>
        obtain ⟨⟨x, hx, -⟩, rfl⟩ := mem_next_one_iff.1 hw
        exact (Array.getElem?_eq_some_iff.1 hx).1
      | look l =>
        obtain ⟨-, rfl⟩ := mem_next_look_iff.1 hw
        exact hle
      | rounds least most greedy r => rwa [(mem_next_rounds_iff.1 hw).1]
      | alt a b =>
        rcases List.mem_pair.1 hw with rfl | rfl <;> exact hle
      | empty | group | enclosed | seq =>
        obtain rfl := List.mem_singleton.1 hw
        exact hle

end Regex

end Rehearsal
