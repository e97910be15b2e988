import Mathlib.Data.List.Basic
import Mathlib.Data.List.Nodup

/-!
# Groups of a list

The members of a list may be sorted into groups by a key, one group for each of some keys
without repetition. If every key that occurs is among them, nothing is lost or doubled.
-/

namespace Rehearsal

/-- The members of a list with the given key. -/
def group [DecidableEq κ] (key : α → κ) (xs : List α) (k : κ) : List α := xs.filter (key · = k)

section Group

variable {α κ : Type} [DecidableEq κ] {key : α → κ} {ks : List κ} {xs : List α}

theorem group_append (first second : List α) (k : κ) :
    group key (first ++ second) k = group key first k ++ group key second k :=
  List.filter_append first second

/-- Grouping only changes the order of the members. -/
theorem perm_flatMap_group (hks : ks.Nodup) (h : ∀ x ∈ xs, key x ∈ ks) :
    (ks.flatMap (group key xs)).Perm xs := by
  induction ks generalizing xs with
  | nil =>
    rw [List.eq_nil_iff_forall_not_mem.2 fun x hx => absurd (h x hx) List.not_mem_nil]
    exact .refl _
  | cons k rest ih =>
    rw [List.nodup_cons] at hks
    let others := xs.filter fun x => !decide (key x = k)
    have hothers : ∀ x ∈ others, key x ∈ rest := by
      intro x hx
      obtain ⟨hx, hne⟩ := List.mem_filter.1 hx
      rcases List.mem_cons.1 (h x hx) with hk | hk
      · simp [hk] at hne
      · exact hk
    have hsame : ∀ k' ∈ rest, group key xs k' = group key others k' := by
      intro k' hk'
      have hkk : k' ≠ k := fun heq => hks.1 (heq ▸ hk')
      rw [group, group, List.filter_filter]
      refine List.filter_congr fun x _ => ?_
      by_cases hx : key x = k'
      · simp [hx, hkk]
      · simp [hx]
    have hrest : rest.flatMap (group key xs) = rest.flatMap (group key others) :=
      congrArg List.flatten (List.map_congr_left hsame)
    rw [List.flatMap_cons, hrest]
    exact ((ih hks.2 hothers).append_left _).trans (List.filter_append_perm _ _)

end Group

theorem nodup_eraseDups [DecidableEq α] : (xs : List α) → xs.eraseDups.Nodup
  | [] => by simp
  | x :: xs => by
    rw [List.eraseDups_cons, List.nodup_cons, List.mem_eraseDups]
    exact ⟨by simp, nodup_eraseDups (xs.filter fun y => !y == x)⟩
termination_by xs => xs.length
decreasing_by exact Nat.lt_succ_of_le (List.length_filter_le _ _)

end Rehearsal
