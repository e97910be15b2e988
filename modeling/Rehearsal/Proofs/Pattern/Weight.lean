import Rehearsal.Proofs.Automaton.Digits
import Rehearsal.Proofs.Pattern.Language

/-!
# The weight of placeholders

How much memory the automata of the expressions for the built-in types take. Most of it is for the
digits, of which there are many (`classBytes_digit_le`), and an expression for doubles writes them
five times.
-/

namespace Rehearsal

namespace Text

theorem Utf8.length_encode_le (n : Nat) : (encode n).length ≤ 4 := by
  rw [encode]
  split_ifs <;> simp

namespace Intervals

theorem complement_single {n : Nat} (hpos : 0 < n) :
    complement [(n, n)] = (0, n - 1) :: complementFrom (n + 1) [] := by
  simp [complement, complementFrom, hpos]

theorem complement_others {n : Nat} (hpos : 0 < n) (hlast : n ≤ last) :
    complement ((0, n - 1) :: complementFrom (n + 1) []) = [(n, n)] := by
  have hnext : n - 1 + 1 = n := Nat.sub_add_cancel hpos
  rw [complementFrom]
  split
  · simp [complement, complementFrom, hnext]
  · obtain rfl : n = last := by omega
    rfl

/-- A set of one character is its own set of characters. -/
theorem characters_single (c : Char) : characters [(c.toNat, c.toNat)] = [(c.toNat, c.toNat)] := by
  have hvalid : c.toNat < 0xD800 ∨ (0xDFFF < c.toNat ∧ c.toNat < 0x110000) := c.valid
  have hsurrogates : complement (complement [(0xD800, 0xDFFF)]) = [(0xD800, 0xDFFF)] := by decide
  have hlast : last = 0x10FFFF := rfl
  generalize c.toNat = n at hvalid ⊢
  obtain rfl | hpos := Nat.eq_zero_or_pos n
  · decide +kernel
  suffices hjoined : union ((0, n - 1) :: complementFrom (n + 1) []) [(0xD800, 0xDFFF)] =
      (0, n - 1) :: complementFrom (n + 1) [] by
    rw [characters, diff, inter, hsurrogates, complement_single hpos, hjoined,
      complement_others hpos (by omega)]
  have hmerge : ∀ s : Intervals, merge ((0, n - 1) :: s) [(0xD800, 0xDFFF)] =
      (0, n - 1) :: merge s [(0xD800, 0xDFFF)] := fun s => by simp [merge]
  rw [union, hmerge, join]
  -- the surrogates are part of the interval below the character or of the one above it
  rcases hvalid with hlow | ⟨hhigh, -⟩
  · have hmax : max last 0xDFFF = last := by omega
    have hmin : min (n + 1) 0xD800 = n + 1 := by omega
    rw [complementFrom, if_pos (by omega), merge, if_pos (by omega), merge, join, join, join, cons,
      cons, if_pos (by omega), hmin, hmax, cons, cons, if_neg (by omega)]
  · have hmax : max (n - 1) 0xDFFF = n - 1 := by omega
    have hcons : ∀ s : Intervals, cons 0 (n - 1) ((0xD800, 0xDFFF) :: s) = cons 0 (n - 1) s :=
      fun s => by rw [cons, if_pos (by omega), Nat.zero_min, hmax]
    rw [complementFrom]
    split
    · rw [merge, if_neg (by omega), merge, join, join, join, cons, cons, if_neg (by omega), hcons,
        cons, if_neg (by omega)]
      exact List.cons_ne_nil _ _
    · rw [merge, join, join, cons, hcons, cons]

end Intervals

end Text

namespace Regex

open Text

variable {r : Regex} {c : CharClass} {k : Nat}

theorem Tree.ofClass_items (c : CharClass) : (Tree.ofClass c).items = [Tree.ofClass c] := by
  rw [ofClass, ofIntervals.eq_def]
  split
  · split <;> rfl
  · rfl

/-- A class of a single character becomes a literal. -/
theorem within_one (h : classBytes (Intervals.characters c.intervals) ≤ k) (hk : 128 ≤ k) :
    (Regex.one c).tree.Within k := by
  have htree : (Regex.one c).tree = Tree.ofIntervals (Intervals.characters c.intervals) := rfl
  rw [htree, Tree.ofIntervals.eq_def]
  split
  · rename_i lo hi hset
    split
    · have hlength := Utf8.length_encode_le lo
      rw [Tree.within_literal_iff, List.flatMap_singleton]
      omega
    · exact (Tree.within_set _).mono (hset ▸ h)
  · exact (Tree.within_set _).mono h

theorem weighs_one (h : classBytes (Intervals.characters c.intervals) ≤ k) (hk : 128 ≤ k) :
    (Regex.one c).Weighs k :=
  weighs_of_item (Tree.ofClass_items c) (within_one h hk)

theorem tree_single (x : Char) : (Regex.one (.single x)).tree = Tree.literal [x.toNat] := by
  have hintervals : (CharClass.single x).intervals = [(x.toNat, x.toNat)] := by
    simp [CharClass.single, CharClass.intervals]
  have hset : (Regex.one (.single x)).tree =
      Tree.ofIntervals (Intervals.characters (CharClass.single x).intervals) := rfl
  rw [hset, hintervals, Intervals.characters_single, Tree.ofIntervals, if_pos rfl]

theorem weighs_single (x : Char) : (Regex.one (.single x)).Weighs 128 := by
  have hlength := Utf8.length_encode_le x.toNat
  refine weighs_of_item (by rw [tree_single]; rfl) ?_
  rw [tree_single, Tree.within_literal_iff, List.flatMap_singleton]
  omega

theorem weighs_rounds (h : r.tree.Within k) {least : Nat} (hleast : least ≤ 1) (greedy : Bool) :
    (Regex.rounds least none greedy r).Weighs (k + 112) :=
  weighs_of_item rfl (h.rounds hleast greedy)

theorem weighs_optional (h : r.tree.Within k) (greedy : Bool) :
    (Regex.rounds 0 (some 1) greedy r).Weighs (k + 72) :=
  weighs_of_item rfl (h.optional greedy)

/-- What the classes of the built-in types take, but for the digits. -/
theorem classBytes_le :
    let bytes (c : CharClass) := classBytes (Intervals.characters c.intervals)
    bytes (.union (.single '-') (.single '+')) ≤ 168 ∧
      bytes (.union (.single 'e') (.single 'E')) ≤ 168 ∧ bytes (.except ['\n']) ≤ 1248 ∧
      bytes (.complement (.space false)) ≤ 4000 := by
  decide +kernel

theorem weighs_sign : sign.Weighs 240 :=
  weighs_optional (within_one classBytes_le.1 (by decide)) true

theorem within_digit : (Regex.one (.digit false)).tree.Within 10700 :=
  within_one classBytes_digit_le (by decide)

theorem weighs_digits : digits.Weighs 10812 := weighs_rounds within_digit (by decide) true

theorem weighs_int : (Regex.seq sign digits).Weighs 11052 := weighs_sign.seq weighs_digits

theorem weighs_anyOnLine : anyOnLine.Weighs 1360 :=
  weighs_rounds (within_one classBytes_le.2.2.1 (by decide)) (by decide) false

theorem weighs_nonBlanks : nonBlanks.Weighs 4112 :=
  weighs_rounds (within_one classBytes_le.2.2.2 (by decide)) (by decide) true

theorem weighs_point : point.Weighs 128 := weighs_single '.'

/-- Alternatives that begin with nothing in common stay as they are. -/
theorem Tree.oneOf_of_sharedStart {ts : List Tree} (hlength : 2 ≤ ts.length)
    (hts : ts.flatMap alternatives = ts) (hclass : classOf? ts = none)
    (hshared : sharedStart ts = []) : oneOf ts = stringAlternatives ts := by
  have hmany : ¬ ts.length ≤ 1 := by omega
  have hwithin : ∀ fuel, oneOfWithin fuel ts = stringAlternatives ts := by
    intro fuel
    cases fuel <;> simp [oneOfWithin, hts, hclass, hshared, hmany]
  rw [oneOf.eq_def]
  split
  · simp at hlength
  · exact hwithin _

/-- Digits, a point and possibly more digits. -/
def wholeMantissa : Regex := .seq digits (.seq point (.rounds 0 none true (.one (.digit false))))

theorem tree_wholeMantissa : wholeMantissa.tree = Tree.inRow [digits.tree,
    Tree.inRow [point.tree, .rounds 0 none true (Regex.one (.digit false)).tree]] := rfl

theorem tree_point : point.tree = .literal [46] := tree_single '.'

theorem tree_digits : digits.tree = .rounds 1 none true (Regex.one (.digit false)).tree := rfl

/-- A mantissa starts with digits or with a point, so nothing is taken out in front. -/
theorem tree_mantissa : mantissa.tree =
    .alternation wholeMantissa.tree (.alternation (Regex.seq point digits).tree digits.tree) := by
  have hfraction : (Regex.seq point digits).tree = Tree.inRow [point.tree, digits.tree] := rfl
  have htree : mantissa.tree =
      Tree.oneOf [wholeMantissa.tree, (Regex.seq point digits).tree, digits.tree] := rfl
  rw [htree, tree_wholeMantissa, hfraction, tree_point, tree_digits]
  -- what a digit is plays no role here
  generalize (Regex.one (.digit false)).tree = t
  exact Tree.oneOf_of_sharedStart (by simp) rfl rfl rfl

theorem characters?_wholeMantissa : wholeMantissa.tree.characters? = none := by
  rw [tree_wholeMantissa, tree_point, tree_digits]
  rfl

theorem weighs_mantissa : (Regex.enclosed mantissa).Weighs 43804 := by
  have hstar := weighs_rounds within_digit (Nat.zero_le 1) true
  have hwhole : wholeMantissa.tree.Within _ := (weighs_digits.seq (weighs_point.seq hstar)).within
  have hfraction := (weighs_point.seq weighs_digits).within
  have hlast := weighs_digits.within.last (fun a b h => by cases h)
  have htotal := hwhole.alternation (hfraction.alternation_last hlast) characters?_wholeMantissa
  rw [← tree_mantissa] at htotal
  have hitems : mantissa.tree.items = [mantissa.tree] := by
    rw [tree_mantissa]
    rfl
  exact (weighs_of_item hitems (htotal.mono (by decide))).enclosed

theorem weighs_exponent : exponent.Weighs 11324 :=
  weighs_optional ((weighs_one classBytes_le.2.1 (by decide)).seq weighs_int).within true

theorem weighs_float : (Regex.seq sign (.seq (.enclosed mantissa) exponent)).Weighs 55368 :=
  weighs_sign.seq (weighs_mantissa.seq weighs_exponent)

end Regex

end Rehearsal
