import Mathlib.Data.List.Perm.Subperm
import Mathlib.Logic.Relation
import Rehearsal.Proofs.Search.Stacks
import Std.Data.HashSet.Lemmas

/-!
# Searching finds what is covered

`Regex.Traces` is the meaning of an expression together with the marks that are set on the way. A
walk that a search returns goes one of these ways (`traces_of_walkFrom`). When a search gives up,
the places it has met are closed under steps and no walk is through at any of them
(`exists_fails`). But steps lead past an expression to wherever it covers the text
(`Spans.reaches`), so nothing is covered from where the search began. As the fuel is enough for all
places, a search finds something if and only if there is something to find (`isSome_walkFrom_iff`,
`isFoundIn_iff`).
-/

namespace Rehearsal

namespace Regex

variable {text : Array Char}

/-- The expression covers the text from one position to another, and the marks are set on the way,
in this order. -/
inductive Traces (text : Array Char) : Regex → Nat → Nat → List Mark → Prop where
  | empty (i : Nat) : Traces text .empty i i []
  | one {c : CharClass} {i : Nat} {x : Char} (hx : text[i]? = some x)
      (hc : c.contains x = true) : Traces text (.one c) i (i + 1) []
  | look {l : Look} {i : Nat} (h : l.holds text i = true) : Traces text (.look l) i i []
  | group {n : Nat} {r : Regex} {i j : Nat} {ms : List Mark} (h : Traces text r i j ms) :
      Traces text (.group n r) i j (.opened n i :: (ms ++ [.closed n j]))
  | enclosed {r : Regex} {i j : Nat} {ms : List Mark} (h : Traces text r i j ms) :
      Traces text (.enclosed r) i j ms
  | seq {a b : Regex} {i k j : Nat} {ms ns : List Mark} (ha : Traces text a i k ms)
      (hb : Traces text b k j ns) : Traces text (.seq a b) i j (ms ++ ns)
  | altLeft {a b : Regex} {i j : Nat} {ms : List Mark} (h : Traces text a i j ms) :
      Traces text (.alt a b) i j ms
  | altRight {a b : Regex} {i j : Nat} {ms : List Mark} (h : Traces text b i j ms) :
      Traces text (.alt a b) i j ms
  | roundsNone {most : Option Nat} {greedy : Bool} {r : Regex} {i : Nat} :
      Traces text (.rounds 0 most greedy r) i i []
  | roundsMore {least : Nat} {most : Option Nat} {greedy : Bool} {r : Regex} {i k j : Nat}
      {ms ns : List Mark} (hmore : 0 < least ∨ most ≠ some 0) (h : Traces text r i k ms)
      (hs : Traces text (.rounds (least - 1) (most.map (· - 1)) greedy r) k j ns) :
      Traces text (.rounds least most greedy r) i j (ms ++ ns)

theorem spans_iff_exists_traces {r : Regex} {i j : Nat} :
    Spans text r i j ↔ ∃ ms, Traces text r i j ms := by
  constructor
  · intro h
    induction h with
    | empty i => exact ⟨_, .empty i⟩
    | one c i x hx hc => exact ⟨_, .one hx hc⟩
    | look l i h => exact ⟨_, .look h⟩
    | group n r i j h ih => exact ⟨_, .group ih.choose_spec⟩
    | enclosed r i j h ih => exact ⟨_, .enclosed ih.choose_spec⟩
    | seq a b i k j ha hb iha ihb => exact ⟨_, .seq iha.choose_spec ihb.choose_spec⟩
    | altLeft a b i j h ih => exact ⟨_, .altLeft ih.choose_spec⟩
    | altRight a b i j h ih => exact ⟨_, .altRight ih.choose_spec⟩
    | roundsNone most greedy r i => exact ⟨_, .roundsNone⟩
    | roundsMore least most greedy r i k j hmore h hs ih ihs =>
      exact ⟨_, .roundsMore hmore ih.choose_spec ihs.choose_spec⟩
  · rintro ⟨ms, h⟩
    induction h with
    | empty i => exact .empty i
    | one hx hc => exact .one _ _ _ hx hc
    | look h => exact .look _ _ h
    | group h ih => exact .group _ _ _ _ ih
    | enclosed h ih => exact .enclosed _ _ _ ih
    | seq ha hb iha ihb => exact .seq _ _ _ _ _ iha ihb
    | altLeft h ih => exact .altLeft _ _ _ _ ih
    | altRight h ih => exact .altRight _ _ _ _ ih
    | roundsNone => exact .roundsNone ..
    | roundsMore hmore h hs ih ihs => exact .roundsMore _ _ _ _ _ _ _ hmore ih ihs

/-- What is covered goes forward and stays within the text. -/
theorem Traces.le {r : Regex} {i j : Nat} {ms : List Mark} (h : Traces text r i j ms) :
    i ≤ j ∧ (i ≤ text.size → j ≤ text.size) := by
  induction h with
  | empty i => exact ⟨Nat.le_refl i, id⟩
  | @one c i x hx _ =>
    have hlt : i < text.size := (Array.getElem?_eq_some_iff.1 hx).1
    exact ⟨Nat.le_succ i, fun _ => hlt⟩
  | look _ => exact ⟨Nat.le_refl _, id⟩
  | group _ ih => exact ih
  | enclosed _ ih => exact ih
  | seq _ _ iha ihb => exact ⟨Nat.le_trans iha.1 ihb.1, fun h => ihb.2 (iha.2 h)⟩
  | altLeft _ ih => exact ih
  | altRight _ ih => exact ih
  | roundsNone => exact ⟨Nat.le_refl _, id⟩
  | roundsMore _ _ _ ih ihs => exact ⟨Nat.le_trans ih.1 ihs.1, fun h => ihs.2 (ih.2 h)⟩

/-! ### What each expression covers -/

section

variable {r a b : Regex} {i j : Nat} {ms : List Mark}

theorem traces_empty_iff :
    Traces text .empty i j ms ↔ j = i ∧ ms = [] := by
  constructor
  · rintro ⟨⟩
    exact ⟨rfl, rfl⟩
  · rintro ⟨rfl, rfl⟩
    exact .empty j

theorem traces_look_iff {l : Look} :
    Traces text (.look l) i j ms ↔ l.holds text i = true ∧ j = i ∧ ms = [] := by
  constructor
  · rintro (_ | _ | h)
    exact ⟨h, rfl, rfl⟩
  · rintro ⟨h, rfl, rfl⟩
    exact .look h

theorem traces_group_iff {n : Nat} :
    Traces text (.group n r) i j ms ↔
      ∃ ms', Traces text r i j ms' ∧ ms = .opened n i :: (ms' ++ [.closed n j]) := by
  constructor
  · rintro (_ | _ | _ | h)
    exact ⟨_, h, rfl⟩
  · rintro ⟨ms', h, rfl⟩
    exact .group h

theorem traces_enclosed_iff : Traces text (.enclosed r) i j ms ↔ Traces text r i j ms := by
  constructor
  · rintro (_ | _ | _ | _ | h)
    exact h
  · exact .enclosed

theorem traces_seq_iff :
    Traces text (.seq a b) i j ms ↔
      ∃ k ms₁ ms₂, Traces text a i k ms₁ ∧ Traces text b k j ms₂ ∧ ms = ms₁ ++ ms₂ := by
  constructor
  · rintro (_ | _ | _ | _ | _ | ⟨ha, hb⟩)
    exact ⟨_, _, _, ha, hb, rfl⟩
  · rintro ⟨k, ms₁, ms₂, ha, hb, rfl⟩
    exact .seq ha hb

theorem traces_alt_iff :
    Traces text (.alt a b) i j ms ↔ Traces text a i j ms ∨ Traces text b i j ms := by
  constructor
  · rintro (_ | _ | _ | _ | _ | _ | h | h)
    · exact .inl h
    · exact .inr h
  · rintro (h | h)
    · exact .altLeft h
    · exact .altRight h

/-- What a repetition covers: nothing, or a round and what one round less covers. -/
theorem traces_rounds_iff {least : Nat} {most : Option Nat} {greedy : Bool} :
    Traces text (.rounds least most greedy r) i j ms ↔
      least = 0 ∧ j = i ∧ ms = [] ∨
      (0 < least ∨ most ≠ some 0) ∧ ∃ k ms₁ ms₂, Traces text r i k ms₁ ∧
        Traces text (.rounds (least - 1) (most.map (· - 1)) greedy r) k j ms₂ ∧
        ms = ms₁ ++ ms₂ := by
  constructor
  · intro h
    cases h with
    | roundsNone => exact .inl ⟨rfl, rfl, rfl⟩
    | roundsMore hmore h hs => exact .inr ⟨hmore, _, _, _, h, hs, rfl⟩
  · rintro (⟨rfl, rfl, rfl⟩ | ⟨hmore, k, ms₁, ms₂, h, hs, rfl⟩)
    · exact .roundsNone
    · exact .roundsMore hmore h hs

end

/-! ### What a search returns -/

/-- What a task does on the way from one position to another. -/
def Task.Traces (text : Array Char) : Task → Nat → Nat → List Mark → Prop
  | cover r => r.Traces text
  | again greedy r => (Regex.rounds 0 none greedy r).Traces text
  | close n => fun i j ms => j = i ∧ ms = [.closed n i]

/-- The tasks may be done one after the other. -/
inductive Finishes (text : Array Char) : List Task → Nat → Nat → List Mark → Prop where
  | nil (i : Nat) : Finishes text [] i i []
  | cons {t : Task} {k : List Task} {i l j : Nat} {ms ns : List Mark} (h : t.Traces text i l ms)
      (hk : Finishes text k l j ns) : Finishes text (t :: k) i j (ms ++ ns)

/-- The walk may go on to its end, at which these marks are set, the latest first. -/
def Walk.Ends (text : Array Char) (w : Walk) (j : Nat) (marks : List Mark) : Prop :=
  ∃ ms, Finishes text w.tasks w.position j ms ∧ marks = ms.reverse ++ w.marks

theorem Finishes.cons_inv {t : Task} {k : List Task} {i j : Nat} {ms : List Mark}
    (h : Finishes text (t :: k) i j ms) :
    ∃ l ms₁ ms₂, t.Traces text i l ms₁ ∧ Finishes text k l j ms₂ ∧ ms = ms₁ ++ ms₂ := by
  cases h with
  | cons h hk => exact ⟨_, _, _, h, hk, rfl⟩

/-- A walk ends after its first task has come to some position. -/
theorem ends_cons_iff {t : Task} {k : List Task} {i j : Nat} {before marks : List Mark} :
    Walk.Ends text ⟨t :: k, i, before⟩ j marks ↔
      ∃ l ms, t.Traces text i l ms ∧ Walk.Ends text ⟨k, l, ms.reverse ++ before⟩ j marks := by
  constructor
  · rintro ⟨ms, hfinish, rfl⟩
    obtain ⟨l, ms₁, ms₂, ht, hk, rfl⟩ := hfinish.cons_inv
    exact ⟨l, ms₁, ht, ms₂, hk, by simp⟩
  · rintro ⟨l, ms, ht, ms', hk, rfl⟩
    exact ⟨ms ++ ms', .cons ht hk, by simp⟩

theorem ends_cons_cons_iff {t t' : Task} {k : List Task} {i j : Nat} {before marks : List Mark} :
    Walk.Ends text ⟨t :: t' :: k, i, before⟩ j marks ↔
      ∃ l l' ms ms', t.Traces text i l ms ∧ t'.Traces text l l' ms' ∧
        Walk.Ends text ⟨k, l', (ms ++ ms').reverse ++ before⟩ j marks := by
  simp only [ends_cons_iff, List.reverse_append, List.append_assoc]
  constructor
  · rintro ⟨l, ms, ht, l', ms', ht', hk⟩
    exact ⟨l, l', ms, ms', ht, ht', hk⟩
  · rintro ⟨l, l', ms, ms', ht, ht', hk⟩
    exact ⟨l, ms, ht, l', ms', ht', hk⟩

/-- What a walk at a repetition comes to after a step. -/
theorem ends_of_next_rounds {least : Nat} {most : Option Nat} {greedy : Bool} {r : Regex}
    {k : List Task} {w' : Walk} {i j : Nat} {before marks : List Mark}
    (hw : w' ∈ Walk.next text ⟨.cover (.rounds least most greedy r) :: k, i, before⟩)
    (h : w'.Ends text j marks) :
    Walk.Ends text ⟨.cover (.rounds least most greedy r) :: k, i, before⟩ j marks := by
  obtain ⟨tasks, position, now⟩ := w'
  obtain ⟨rfl, rfl, ⟨rfl, rfl⟩ | ⟨rfl, hleast, rfl⟩ | ⟨-, hmore, rfl⟩⟩ := mem_next_rounds_iff.1 hw
  · exact ends_cons_iff.2 ⟨_, [], .roundsNone, h⟩
  · obtain ⟨l, l', ms, ms', hround, hagain, hk⟩ := ends_cons_cons_iff.1 h
    have hrest : Traces text (.rounds (least - 1) none greedy r) l l' ms' := by
      rw [Nat.sub_eq_zero_of_le hleast]
      exact hagain
    exact ends_cons_iff.2 ⟨l', _, .roundsMore (.inr nofun) hround hrest, hk⟩
  · obtain ⟨l, l', ms, ms', hround, hrounds, hk⟩ := ends_cons_cons_iff.1 h
    exact ends_cons_iff.2 ⟨l', _, .roundsMore hmore hround hrounds, hk⟩

/-- What a walk comes to after a step it may come to. -/
theorem ends_of_next {w w' : Walk} {j : Nat} {marks : List Mark} (hw : w' ∈ w.next text)
    (h : w'.Ends text j marks) : w.Ends text j marks := by
  obtain ⟨tasks, i, before⟩ := w
  cases tasks with
  | nil => cases hw
  | cons t k =>
    cases t with
    | close n =>
      obtain rfl := List.mem_singleton.1 hw
      exact ends_cons_iff.2 ⟨i, [.closed n i], ⟨rfl, rfl⟩, h⟩
    | again greedy r =>
      obtain ⟨tasks, position, now⟩ := w'
      obtain ⟨rfl, rfl, rfl | rfl⟩ := mem_next_again_iff.1 hw
      · exact ends_cons_iff.2 ⟨_, [], .roundsNone, h⟩
      · obtain ⟨l, l', ms, ms', hround, hagain, hk⟩ := ends_cons_cons_iff.1 h
        exact ends_cons_iff.2 ⟨l', _, .roundsMore (.inr nofun) hround hagain, hk⟩
    | cover r =>
      cases r with
      | empty =>
        obtain rfl := List.mem_singleton.1 hw
        exact ends_cons_iff.2 ⟨i, [], .empty i, h⟩
      | one c =>
        obtain ⟨⟨x, hx, hc⟩, rfl⟩ := mem_next_one_iff.1 hw
        exact ends_cons_iff.2 ⟨i + 1, [], .one hx hc, h⟩
      | look l =>
        obtain ⟨hl, rfl⟩ := mem_next_look_iff.1 hw
        exact ends_cons_iff.2 ⟨i, [], .look hl, h⟩
      | group n r =>
        obtain rfl := List.mem_singleton.1 hw
        obtain ⟨l, l', ms, ms', hr, ⟨rfl, rfl⟩, hk⟩ := ends_cons_cons_iff.1 h
        exact ends_cons_iff.2 ⟨l', _, .group hr, by simpa using hk⟩
      | enclosed r =>
        obtain rfl := List.mem_singleton.1 hw
        obtain ⟨l, ms, hr, hk⟩ := ends_cons_iff.1 h
        exact ends_cons_iff.2 ⟨l, ms, .enclosed hr, hk⟩
      | seq a b =>
        obtain rfl := List.mem_singleton.1 hw
        obtain ⟨l, l', ms, ms', ha, hb, hk⟩ := ends_cons_cons_iff.1 h
        exact ends_cons_iff.2 ⟨l', ms ++ ms', .seq ha hb, hk⟩
      | alt a b =>
        rcases List.mem_pair.1 hw with rfl | rfl
        · obtain ⟨l, ms, ha, hk⟩ := ends_cons_iff.1 h
          exact ends_cons_iff.2 ⟨l, ms, .altLeft ha, hk⟩
        · obtain ⟨l, ms, hb, hk⟩ := ends_cons_iff.1 h
          exact ends_cons_iff.2 ⟨l, ms, .altRight hb, hk⟩
      | rounds least most greedy r => exact ends_of_next_rounds hw h

/-- The walk that is returned is the end of one that was waiting. -/
theorem exists_ends_of_explore {fuel : Nat} {seen : Seen} {waiting : List Walk} {w : Walk}
    (h : explore text fuel seen waiting = some w) :
    ∃ w₀ ∈ waiting, w₀.Ends text w.position w.marks := by
  fun_induction explore text fuel seen waiting with
  | case1 => cases h
  | case2 fuel seen w' waiting hseen ih =>
    obtain ⟨w₀, hw₀, hends⟩ := ih h
    exact ⟨w₀, List.mem_cons_of_mem _ hw₀, hends⟩
  | case3 fuel seen w' waiting hseen hnil =>
    obtain rfl := Option.some.inj h
    rw [List.isEmpty_iff] at hnil
    refine ⟨w', List.mem_cons_self, [], ?_, rfl⟩
    rw [hnil]
    exact .nil _
  | case4 => cases h
  | case5 seen w' waiting hseen hnil fuel ih =>
    obtain ⟨w₀, hw₀, hends⟩ := ih h
    rcases List.mem_append.1 hw₀ with hnext | hw₀
    · exact ⟨w', List.mem_cons_self, ends_of_next hnext hends⟩
    · exact ⟨w₀, List.mem_cons_of_mem _ hw₀, hends⟩

/-- The walk of a search covers the text up to where it ends, with the marks it has set. -/
theorem traces_of_walkFrom {r : Regex} {i : Nat} {w : Walk} (h : r.walkFrom text i = some w) :
    r.Traces text i w.position w.marks.reverse := by
  obtain ⟨w₀, hw₀, ms, hfinish, hmarks⟩ := exists_ends_of_explore h
  obtain rfl := List.mem_singleton.1 hw₀
  obtain ⟨l, ms₁, ms₂, hr, hnil, rfl⟩ := hfinish.cons_inv
  cases hnil
  have hcover : r.Traces text i w.position ms₁ := hr
  simpa [hmarks] using hcover

/-! ### What a search that gives up has met -/

/-- No walk is through at the place, and all steps from it lead to places of the set. -/
def Place.Fails (text : Array Char) (S : Place → Prop) (p : Place) : Prop :=
  p.tasks ≠ [] ∧ ∃ marks, ∀ w' ∈ Walk.next text ⟨p.tasks, p.position, marks⟩, S w'.place

/-- Whatever marks are set, a step leads from one place to the other. -/
def Place.Leads (text : Array Char) (p q : Place) : Prop :=
  ∀ marks, ∃ w' ∈ Walk.next text ⟨p.tasks, p.position, marks⟩, w'.place = q

namespace Place

variable {k : List Task} {i : Nat} {greedy : Bool} {r : Regex}

theorem leads_group (n : Nat) :
    Leads text ⟨.cover (.group n r) :: k, i⟩ ⟨.cover r :: .close n :: k, i⟩ :=
  fun _ => ⟨_, List.mem_singleton_self _, rfl⟩

theorem leads_close (n : Nat) : Leads text ⟨.close n :: k, i⟩ ⟨k, i⟩ :=
  fun _ => ⟨_, List.mem_singleton_self _, rfl⟩

theorem leads_altLeft (a b : Regex) : Leads text ⟨.cover (.alt a b) :: k, i⟩ ⟨.cover a :: k, i⟩ :=
  fun _ => ⟨_, List.mem_pair.2 (.inl rfl), rfl⟩

theorem leads_altRight (a b : Regex) : Leads text ⟨.cover (.alt a b) :: k, i⟩ ⟨.cover b :: k, i⟩ :=
  fun _ => ⟨_, List.mem_pair.2 (.inr rfl), rfl⟩

theorem leads_one {c : CharClass} {x : Char} (hx : text[i]? = some x) (hc : c.contains x = true) :
    Leads text ⟨.cover (.one c) :: k, i⟩ ⟨k, i + 1⟩ :=
  fun marks => ⟨⟨k, i + 1, marks⟩, mem_next_one_iff.2 ⟨⟨x, hx, hc⟩, rfl⟩, rfl⟩

theorem leads_look {l : Look} (hl : l.holds text i = true) :
    Leads text ⟨.cover (.look l) :: k, i⟩ ⟨k, i⟩ :=
  fun marks => ⟨⟨k, i, marks⟩, mem_next_look_iff.2 ⟨hl, rfl⟩, rfl⟩

theorem leads_roundsNone (most : Option Nat) :
    Leads text ⟨.cover (.rounds 0 most greedy r) :: k, i⟩ ⟨k, i⟩ :=
  fun marks => ⟨⟨k, i, marks⟩, mem_next_rounds_iff.2 ⟨rfl, rfl, .inl ⟨rfl, rfl⟩⟩, rfl⟩

theorem leads_roundsAgain {least : Nat} (hleast : least ≤ 1) :
    Leads text ⟨.cover (.rounds least none greedy r) :: k, i⟩
      ⟨.cover r :: .again greedy r :: k, i⟩ :=
  fun marks => ⟨⟨_, i, marks⟩,
    mem_next_rounds_iff.2 ⟨rfl, rfl, .inr (.inl ⟨rfl, hleast, rfl⟩)⟩, rfl⟩

theorem leads_roundsMore {least : Nat} {most : Option Nat} (hcounted : ¬(most = none ∧ least ≤ 1))
    (hmore : 0 < least ∨ most ≠ some 0) :
    Leads text ⟨.cover (.rounds least most greedy r) :: k, i⟩
      ⟨.cover r :: .cover (.rounds (least - 1) (most.map (· - 1)) greedy r) :: k, i⟩ :=
  fun marks => ⟨⟨_, i, marks⟩,
    mem_next_rounds_iff.2 ⟨rfl, rfl, .inr (.inr ⟨hcounted, hmore, rfl⟩)⟩, rfl⟩

theorem leads_againNone : Leads text ⟨.again greedy r :: k, i⟩ ⟨k, i⟩ :=
  fun marks => ⟨⟨k, i, marks⟩, mem_next_again_iff.2 ⟨rfl, rfl, .inl rfl⟩, rfl⟩

theorem leads_againMore :
    Leads text ⟨.again greedy r :: k, i⟩ ⟨.cover r :: .again greedy r :: k, i⟩ :=
  fun marks => ⟨⟨_, i, marks⟩, mem_next_again_iff.2 ⟨rfl, rfl, .inr rfl⟩, rfl⟩

end Place

open Relation Place in
/-- Steps lead past an expression to wherever it covers the text. From the last round that has to
be done on, further rounds are one task, from which they lead to the same places. -/
theorem Spans.reaches {r : Regex} {i j : Nat} (h : Spans text r i j) (k : List Task) :
    ReflTransGen (Leads text) ⟨.cover r :: k, i⟩ ⟨k, j⟩ ∧
      ∀ greedy r', r = .rounds 0 none greedy r' →
        ReflTransGen (Leads text) ⟨.again greedy r' :: k, i⟩ ⟨k, j⟩ := by
  induction h generalizing k with
  | empty i => exact ⟨.single fun _ => ⟨_, List.mem_singleton_self _, rfl⟩, nofun⟩
  | one c i x hx hc => exact ⟨.single (leads_one hx hc), nofun⟩
  | look l i hl => exact ⟨.single (leads_look hl), nofun⟩
  | group n r i j h ih => exact ⟨.head (leads_group n) ((ih _).1.tail (leads_close n)), nofun⟩
  | enclosed r i j h ih =>
    exact ⟨.head (fun _ => ⟨_, List.mem_singleton_self _, rfl⟩) (ih k).1, nofun⟩
  | seq a b i l j ha hb iha ihb =>
    exact ⟨.head (fun _ => ⟨_, List.mem_singleton_self _, rfl⟩) ((iha _).1.trans (ihb k).1), nofun⟩
  | altLeft a b i j h ih => exact ⟨.head (leads_altLeft a b) (ih k).1, nofun⟩
  | altRight a b i j h ih => exact ⟨.head (leads_altRight a b) (ih k).1, nofun⟩
  | roundsNone most greedy r i =>
    refine ⟨.single (leads_roundsNone most), ?_⟩
    rintro _ _ ⟨⟩
    exact .single leads_againNone
  | roundsMore least most greedy r i l j hmore h hs ih ihs =>
    constructor
    · by_cases hlast : most = none ∧ least ≤ 1
      · obtain ⟨rfl, hleast⟩ := hlast
        have hrest : rounds (least - 1) (Option.map (· - 1) none) greedy r =
            .rounds 0 none greedy r := by
          rw [Nat.sub_eq_zero_of_le hleast, Option.map_none]
        exact .head (leads_roundsAgain hleast) ((ih _).1.trans ((ihs k).2 greedy r hrest))
      · exact .head (leads_roundsMore hlast hmore) ((ih _).1.trans (ihs k).1)
    · rintro _ _ ⟨⟩
      exact .head leads_againMore ((ih _).1.trans ((ihs k).2 greedy r rfl))

/-- Steps do not lead out of a set that all places after its places are in. -/
theorem Place.mem_of_reaches {S : Place → Prop} (hS : ∀ p, S p → p.Fails text S) {p q : Place}
    (h : Relation.ReflTransGen (Leads text) p q) (hp : S p) : S q := by
  induction h with
  | refl => exact hp
  | tail _ hlead ih =>
    obtain ⟨-, marks, hnext⟩ := hS _ ih
    obtain ⟨w', hw', rfl⟩ := hlead marks
    exact hnext w' hw'

/-- The place is in the list, unless a walk is through there. -/
def Place.Within (U : List Place) (p : Place) : Prop := p.tasks = [] ∨ p ∈ U

theorem size_lt_length {U : List Place} {seen : Seen} (hseen : ∀ p ∈ seen, p ∈ U) {p : Place}
    (hp : p ∈ U) (hnew : p ∉ seen) : seen.size < U.length := by
  have hnodup : (p :: seen.toList).Nodup := by
    refine List.nodup_cons.2 ⟨by simpa using hnew, ?_⟩
    exact (seen.distinct_toList).imp fun hne => by simpa using hne
  have hsub : p :: seen.toList ⊆ U :=
    List.cons_subset.2 ⟨hp, fun q hq => hseen q (by simpa using hq)⟩
  exact Nat.lt_of_succ_le (by simpa using (hnodup.subperm hsub).length_le)

/-- A search with fuel for all places gives up only if all that waits leads nowhere. -/
theorem exists_fails {U : List Place}
    (hU : ∀ p ∈ U, ∀ marks, ∀ w' ∈ Walk.next text ⟨p.tasks, p.position, marks⟩, w'.place.Within U)
    {fuel : Nat} {seen : Seen} {waiting : List Walk} (hseen : ∀ p ∈ seen, p ∈ U)
    (hwaiting : ∀ w ∈ waiting, w.place.Within U) (hfuel : U.length ≤ seen.size + fuel)
    (h : explore text fuel seen waiting = none) :
    ∃ S : Place → Prop, (∀ w ∈ waiting, S w.place) ∧ (∀ p ∈ seen, S p) ∧
      ∀ p, S p → p ∉ seen → p.Fails text S := by
  fun_induction explore text fuel seen waiting with
  | case1 fuel seen => exact ⟨(· ∈ seen), by simp, fun p hp => hp, fun p hp hnew => absurd hp hnew⟩
  | case2 fuel seen w waiting hmet ih =>
    obtain ⟨S, hS, hmem, hfails⟩ := ih hseen (List.forall_mem_cons.1 hwaiting).2 hfuel h
    exact ⟨S, List.forall_mem_cons.2 ⟨hmem _ (by simpa using hmet), hS⟩, hmem, hfails⟩
  | case3 => cases h
  | case4 seen w waiting hmet hnil =>
    obtain ⟨hw, -⟩ := List.forall_mem_cons.1 hwaiting
    have hopen : w.tasks ≠ [] := by simpa using hnil
    have hin : w.place ∈ U := hw.resolve_left hopen
    have hlt := size_lt_length hseen hin (by simpa using hmet)
    omega
  | case5 seen w waiting hmet hnil fuel ih =>
    obtain ⟨hw, hrest⟩ := List.forall_mem_cons.1 hwaiting
    have hopen : w.tasks ≠ [] := by simpa using hnil
    have hin : w.place ∈ U := hw.resolve_left hopen
    have hnew : w.place ∉ seen := by simpa using hmet
    have hsize : (seen.insert w.place).size = seen.size + 1 := by
      rw [Std.HashSet.size_insert, if_neg hnew]
    have hseen' : ∀ p ∈ seen.insert w.place, p ∈ U := by
      intro p hp
      rcases Std.HashSet.mem_insert.1 hp with heq | hp
      · exact eq_of_beq heq ▸ hin
      · exact hseen p hp
    obtain ⟨S, hS, hmem, hfails⟩ := ih hseen'
      (List.forall_mem_append.2 ⟨fun w' hw' => hU _ hin w.marks w' hw', hrest⟩) (by omega) h
    obtain ⟨hnext, hwait⟩ := List.forall_mem_append.1 hS
    refine ⟨S, List.forall_mem_cons.2 ⟨hmem _ (by simp), hwait⟩, fun p hp => hmem p (by simp [hp]),
      fun p hp hold => ?_⟩
    by_cases heq : p = w.place
    · rw [heq]
      exact ⟨hopen, w.marks, hnext⟩
    · exact hfails p hp (by simp [hold, Ne.symm heq])

def places (r : Regex) (text : Array Char) : List Place :=
  (allStacks r []).flatMap fun s => (List.range (text.size + 1)).map fun i => ⟨s, i⟩

theorem length_places_le (r : Regex) (text : Array Char) :
    (r.places text).length ≤ (r.size + 1) * (text.size + 1) := by
  have hlength : (r.places text).length = (allStacks r []).length * (text.size + 1) := by
    simp [places, List.length_flatMap]
  rw [hlength]
  exact Nat.mul_le_mul_right _ (Nat.le_succ_of_le (length_allStacks_le r []))

theorem mem_places_iff {r : Regex} {p : Place} :
    p ∈ r.places text ↔ p.tasks ∈ allStacks r [] ∧ p.position ≤ text.size := by
  simp only [places, List.mem_flatMap, List.mem_map, List.mem_range, Nat.lt_succ_iff]
  constructor
  · rintro ⟨s, hs, i, hi, rfl⟩
    exact ⟨hs, hi⟩
  · rintro ⟨hs, hi⟩
    exact ⟨p.tasks, hs, p.position, hi, rfl⟩

/-- From a position in the text a search finds a walk if and only if something is covered from
there. -/
theorem isSome_walkFrom_iff {r : Regex} {i : Nat} (hi : i ≤ text.size) :
    (r.walkFrom text i).isSome = true ↔ ∃ j, Spans text r i j := by
  constructor
  · intro h
    obtain ⟨w, hw⟩ := Option.isSome_iff_exists.1 h
    exact ⟨w.position, spans_iff_exists_traces.2 ⟨_, traces_of_walkFrom hw⟩⟩
  · rintro ⟨j, hspans⟩
    rw [Option.isSome_iff_ne_none]
    intro hnone
    have hU : ∀ p ∈ r.places text, ∀ marks,
        ∀ w' ∈ Walk.next text ⟨p.tasks, p.position, marks⟩, w'.place.Within (r.places text) := by
      intro p hp marks w' hw'
      obtain ⟨htasks, hposition⟩ := mem_places_iff.1 hp
      rcases keeps_allStacks r [] _ htasks w' hw' with hmem | hnil
      · exact .inr (mem_places_iff.2 ⟨hmem, position_le_of_next hw' hposition⟩)
      · exact .inl (List.mem_singleton.1 hnil)
    have hstart : (⟨[.cover r], i, []⟩ : Walk).place ∈ r.places text :=
      mem_places_iff.2 ⟨head_mem_allStacks r [], hi⟩
    obtain ⟨S, hS, -, hfails⟩ := exists_fails hU (by simp)
      (List.forall_mem_singleton.2 (.inr hstart)) (by simpa using length_places_le r text) hnone
    have hthrough := Place.mem_of_reaches (fun p hp => hfails p hp (by simp)) (hspans.reaches []).1
      (hS _ List.mem_cons_self)
    exact (hfails _ hthrough (by simp)).1 rfl

/-! ### Searching on from a position -/

theorem searchFrom_eq_some {r : Regex} {i left l : Nat} {w : Walk}
    (h : r.searchFrom text i left = some (l, w)) : r.walkFrom text l = some w ∧ l ≤ i + left := by
  induction left generalizing i with
  | zero =>
    obtain ⟨w', hw', heq⟩ := Option.map_eq_some_iff.1 h
    cases heq
    exact ⟨hw', Nat.le_refl _⟩
  | succ left ih =>
    rw [searchFrom] at h
    split at h
    · rename_i w' hw'
      cases h
      exact ⟨hw', Nat.le_add_right _ _⟩
    · obtain ⟨hw, hle⟩ := ih h
      exact ⟨hw, by omega⟩

theorem isSome_searchFrom_iff {r : Regex} {i left : Nat} :
    (r.searchFrom text i left).isSome = true ↔
      ∃ l, i ≤ l ∧ l ≤ i + left ∧ (r.walkFrom text l).isSome = true := by
  induction left generalizing i with
  | zero =>
    rw [searchFrom, Option.isSome_map]
    constructor
    · exact fun h => ⟨i, Nat.le_refl _, Nat.le_refl _, h⟩
    · rintro ⟨l, hle, hge, h⟩
      obtain rfl : l = i := Nat.le_antisymm hge hle
      exact h
  | succ left ih =>
    rw [searchFrom]
    split
    · rename_i w hw
      exact ⟨fun _ => ⟨i, Nat.le_refl _, Nat.le_add_right _ _, by simp [hw]⟩, fun _ => rfl⟩
    · rename_i hnone
      rw [ih]
      constructor
      · rintro ⟨l, hle, hge, h⟩
        exact ⟨l, by omega, by omega, h⟩
      · rintro ⟨l, hle, hge, h⟩
        have hne : l ≠ i := fun heq => by simp [heq, hnone] at h
        exact ⟨l, by omega, by omega, h⟩

theorem search_eq_some {r : Regex} {i : Nat} {w : Walk} (h : r.search text = some (i, w)) :
    i ≤ text.size ∧ r.Traces text i w.position w.marks.reverse := by
  obtain ⟨hw, hle⟩ := searchFrom_eq_some h
  exact ⟨by omega, traces_of_walkFrom hw⟩

/-- An expression is found in a text if and only if it covers some part of it. -/
theorem isFoundIn_iff {r : Regex} :
    r.isFoundIn text = true ↔ ∃ i j, i ≤ text.size ∧ Spans text r i j := by
  rw [isFoundIn, search, isSome_searchFrom_iff]
  constructor
  · rintro ⟨i, -, hle, h⟩
    have hi : i ≤ text.size := by omega
    obtain ⟨j, hspans⟩ := (isSome_walkFrom_iff hi).1 h
    exact ⟨i, j, hi, hspans⟩
  · rintro ⟨i, j, hi, hspans⟩
    exact ⟨i, Nat.zero_le _, by omega, (isSome_walkFrom_iff hi).2 ⟨j, hspans⟩⟩

end Regex

end Rehearsal
