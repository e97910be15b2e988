import Rehearsal.Proofs.Pattern.Frame
import Rehearsal.Proofs.Pattern.Pieces

/-!
# Anchors at the ends of an expression

A caret in front of the first alternative and a dollar sign behind the last one do not change how
an expression covers a whole text, whatever the flags in force there (`AgreesWhere`): a line begins
where the text begins, and ends where it ends. They make the form deeper by one at most
(`depth_ofBranches_le`).
-/

namespace Rehearsal

namespace Regex

namespace Form

theorem meaning_concat_iff {g h : Flags} {R : Regex} {a b : Form} :
    (concat a b).meaning g = some (R, h) ↔ ∃ Ra g' Rb, a.meaning g = some (Ra, g') ∧
      b.meaning g' = some (Rb, h) ∧ .seq Ra Rb = R := by
  simp only [meaning]
  rcases a.meaning g with _ | ⟨Ra, g'⟩
  · simp
  · rcases hb : b.meaning g' with _ | ⟨Rb, h'⟩ <;> simp [hb, and_comm]

theorem meaning_alternation_iff {g h : Flags} {R : Regex} {a b : Form} :
    (alternation a b).meaning g = some (R, h) ↔ ∃ Ra g' Rb, a.meaning g = some (Ra, g') ∧
      b.meaning g' = some (Rb, h) ∧ .alt Ra Rb = R := by
  simp only [meaning]
  rcases a.meaning g with _ | ⟨Ra, g'⟩
  · simp
  · rcases hb : b.meaning g' with _ | ⟨Rb, h'⟩ <;> simp [hb, and_comm]

/-! ### Meaning the same between certain positions -/

/-- Under all flags the second form means what the first one means, between positions of the given
kind. -/
def AgreesWhere (good : Array Char → Nat → Nat → Prop) (f f' : Form) : Prop :=
  ∀ g R h, f.meaning g = some (R, h) → ∃ R', f'.meaning g = some (R', h) ∧
    ∀ text i j ms, good text i j → (Traces text R' i j ms ↔ Traces text R i j ms)

variable {good : Array Char → Nat → Nat → Prop} {f f' c : Form}

theorem AgreesWhere.refl (good : Array Char → Nat → Nat → Prop) (f : Form) :
    AgreesWhere good f f :=
  fun _ R _ hf => ⟨R, hf, fun _ _ _ _ _ => Iff.rfl⟩

theorem AgreesWhere.alternation_left (h : AgreesWhere good f f') (c : Form) :
    AgreesWhere good (.alternation f c) (.alternation f' c) := by
  intro g R after hmeaning
  obtain ⟨Rf, g', Rc, hf, hc, rfl⟩ := meaning_alternation_iff.1 hmeaning
  obtain ⟨Rf', hf', htraces⟩ := h g Rf g' hf
  refine ⟨.alt Rf' Rc, meaning_alternation_iff.2 ⟨Rf', g', Rc, hf', hc, rfl⟩,
    fun text i j ms hgood => ?_⟩
  rw [traces_alt_iff, traces_alt_iff, htraces text i j ms hgood]

theorem AgreesWhere.alternation_right (h : AgreesWhere good f f') (c : Form) :
    AgreesWhere good (.alternation c f) (.alternation c f') := by
  intro g R after hmeaning
  obtain ⟨Rc, g', Rf, hc, hf, rfl⟩ := meaning_alternation_iff.1 hmeaning
  obtain ⟨Rf', hf', htraces⟩ := h g' Rf after hf
  refine ⟨.alt Rc Rf', meaning_alternation_iff.2 ⟨Rc, g', Rf', hc, hf', rfl⟩,
    fun text i j ms hgood => ?_⟩
  rw [traces_alt_iff, traces_alt_iff, htraces text i j ms hgood]

/-- From the start of a text. -/
def FromStart (_ : Array Char) (i _ : Nat) : Prop := i = 0

/-- To the end of a text. -/
def ToEnd (text : Array Char) (_ j : Nat) : Prop := j = text.size

theorem AgreesWhere.concat_right (h : AgreesWhere ToEnd f f') (c : Form) :
    AgreesWhere ToEnd (.concat c f) (.concat c f') := by
  intro g R after hmeaning
  obtain ⟨Rc, g', Rf, hc, hf, rfl⟩ := meaning_concat_iff.1 hmeaning
  obtain ⟨Rf', hf', htraces⟩ := h g' Rf after hf
  refine ⟨.seq Rc Rf', meaning_concat_iff.2 ⟨Rc, g', Rf', hc, hf', rfl⟩, ?_⟩
  rintro text i j ms hend
  simp only [traces_seq_iff, fun k ms => htraces text k j ms hend]

/-! ### Anchors -/

theorem holds_caret (g : Flags) (text : Array Char) :
    (Assertion.caret.meaning g).holds text 0 = true := by
  simp only [Assertion.meaning]
  split_ifs
  · cases g.crlf <;> rfl
  · rfl

theorem holds_dollar (g : Flags) (text : Array Char) :
    (Assertion.dollar.meaning g).holds text text.size = true := by
  simp only [Assertion.meaning]
  split_ifs
  · cases g.crlf <;> simp [Look.holds]
  · simp [Look.holds]

/-- A caret in front of items does not count at the start of a text. -/
theorem agreesWhere_caret (items : List Form) :
    AgreesWhere FromStart (ofReversed items) (ofReversed (items ++ [.assertion .caret])) := by
  rintro g R after hitems
  by_cases hnil : items = []
  · subst hnil
    cases hitems
    refine ⟨_, rfl, ?_⟩
    rintro text _ j ms rfl
    simp [traces_look_iff, traces_empty_iff, holds_caret]
  · rw [ofReversed_append_singleton _ hnil]
    refine ⟨_, meaning_concat_iff.2 ⟨_, g, R, rfl, hitems, rfl⟩, ?_⟩
    rintro text _ j ms rfl
    simp [traces_seq_iff, traces_look_iff, holds_caret]

/-- A dollar sign behind items does not count at the end of a text. -/
theorem agreesWhere_dollar (items : List Form) :
    AgreesWhere ToEnd (ofReversed items) (ofReversed (.assertion .dollar :: items)) := by
  cases items with
  | nil =>
    rintro g R after hitems
    cases hitems
    refine ⟨_, rfl, ?_⟩
    rintro text i _ ms rfl
    rw [traces_look_iff, traces_empty_iff]
    constructor
    · exact fun h => h.2
    · rintro ⟨hi, hms⟩
      exact ⟨hi ▸ holds_dollar _ text, hi, hms⟩
  | cons a items =>
    have hlast : AgreesWhere ToEnd a (.concat a (.assertion .dollar)) := by
      intro g R after ha
      refine ⟨_, meaning_concat_iff.2 ⟨R, after, _, ha, rfl, rfl⟩, ?_⟩
      rintro text i _ ms rfl
      simp only [traces_seq_iff, traces_look_iff]
      constructor
      · rintro ⟨k, ms₁, _, hR, ⟨-, rfl, rfl⟩, rfl⟩
        rwa [List.append_nil]
      · exact fun hR => ⟨text.size, ms, [], hR, ⟨holds_dollar _ text, rfl, rfl⟩, by simp⟩
    simp only [ofReversed, List.foldl_cons]
    generalize Form.concat a (.assertion .dollar) = last at hlast ⊢
    induction items generalizing a last with
    | nil => exact hlast
    | cons b items ih => exact ih _ _ (hlast.concat_right b)

/-- The first alternative may be exchanged for one that agrees with it. -/
theorem AgreesWhere.ofBranches_append (h : AgreesWhere good f f') (branches : List Form) :
    AgreesWhere good (ofBranches (branches ++ [f])) (ofBranches (branches ++ [f'])) := by
  cases branches with
  | nil => exact h
  | cons b branches =>
    simp only [ofBranches, List.cons_append, List.foldl_append, List.foldl_cons, List.foldl_nil]
    exact h.alternation_left _

/-- The last alternative may be exchanged for one that agrees with it. -/
theorem AgreesWhere.ofBranches_cons (h : AgreesWhere good f f') (branches : List Form) :
    AgreesWhere good (ofBranches (f :: branches)) (ofBranches (f' :: branches)) := by
  simp only [ofBranches]
  induction branches generalizing f f' with
  | nil => exact h
  | cons b branches ih => exact ih (h.alternation_right b)

/-! ### Depth -/

theorem depth_le_succ (within : Option Chain) (f : Form) :
    f.depth within ≤ 1 + f.depth (some .concat) := by
  cases f with
  | concat a b =>
    simp only [depth]
    split_ifs <;> omega
  | alternation a b =>
    simp only [depth]
    split_ifs <;> omega
  | _ => exact Nat.le_add_left _ _

/-- A caret in front of items does not make any of them deeper. -/
theorem depth_caret (items : List Form) :
    (ofReversed (items ++ [.assertion .caret])).depth (some .concat) =
      (ofReversed items).depth (some .concat) := by
  by_cases hnil : items = []
  · subst hnil
    rfl
  · simp [ofReversed_append_singleton _ hnil, depth]

/-- A dollar sign behind items does not make any of them deeper. -/
theorem depth_dollar (items : List Form) :
    (ofReversed (.assertion .dollar :: items)).depth (some .concat) =
      (ofReversed items).depth (some .concat) := by
  have hfold : ∀ (items : List Form) {a b : Form},
      a.depth (some .concat) = b.depth (some .concat) →
      (items.foldl (fun acc c => concat c acc) a).depth (some .concat) =
        (items.foldl (fun acc c => concat c acc) b).depth (some .concat) := by
    intro items
    induction items with
    | nil => exact fun h => h
    | cons c items ih => exact fun h => ih (by simp [depth, h])
  cases items with
  | nil => rfl
  | cons a items => exact hfold items (by simp [depth])

/-- Single items one after the other are no deeper in a row than elsewhere. -/
theorem depth_ofReversed_le {items : List Form} (h : ∀ f ∈ items, f.IsItem)
    (within : Option Chain) :
    (ofReversed items).depth (some .concat) ≤ (ofReversed items).depth within := by
  have hfold : ∀ (items : List Form) {a : Form},
      a.depth (some .concat) ≤ a.depth within →
      (items.foldl (fun acc c => concat c acc) a).depth (some .concat) ≤
        (items.foldl (fun acc c => concat c acc) a).depth within := by
    intro items
    induction items with
    | nil => exact fun h => h
    | cons c items ih => exact fun _ => ih (by simp [depth])
  cases items with
  | nil => exact Nat.le_refl _
  | cons a items =>
    have ha := (List.forall_mem_cons.1 h).1
    exact hfold items (Nat.le_of_eq ((ha _).trans (ha within).symm))

/-- Alternatives each deeper by one at most are deeper by one at most. -/
theorem depth_ofBranches_le {branches branches' : List Form}
    (h : List.Forall₂ (fun b b' => ∀ within, b'.depth within ≤ b.depth within + 1)
      branches branches') (within : Option Chain) :
    (ofBranches branches').depth within ≤ (ofBranches branches).depth within + 1 := by
  cases h with
  | nil => exact Nat.zero_le _
  | @cons a a' branches branches' ha h =>
    simp only [ofBranches]
    induction h generalizing a a' with
    | nil => exact ha within
    | @cons b b' _ _ hb _ ih =>
      refine ih fun within => ?_
      have hb := hb (some .alternation)
      have ha := ha (some .alternation)
      simp only [depth]
      omega

end Form

namespace Reader

variable {items branches items' branches' : List Form} {caret : Bool}

/-- The assertion, or nothing. -/
def anchor (a : Assertion) (on : Bool) : List Form := if on then [.assertion a] else []

/-- A caret in front of the first alternative does not count at the start of a text. -/
theorem Leads.agreesWhere (h : Leads (anchor .caret caret) items branches items' branches') :
    Form.AgreesWhere Form.FromStart (Form.ofBranches (Form.ofReversed items :: branches))
      (Form.ofBranches (Form.ofReversed items' :: branches')) := by
  have hrow : ∀ items, Form.AgreesWhere Form.FromStart (Form.ofReversed items)
      (Form.ofReversed (items ++ anchor .caret caret)) := by
    intro items
    cases caret with
    | false =>
      rw [anchor, if_neg Bool.false_ne_true, List.append_nil]
      exact .refl _ _
    | true => exact Form.agreesWhere_caret items
  cases h with
  | first _ => exact hrow items
  | later between _ _ => exact (hrow _).ofBranches_append (Form.ofReversed items :: between)

/-- A dollar sign behind the last alternative does not count at the end of a text. -/
theorem agreesWhere_anchor_dollar (dollar : Bool) (items branches : List Form) :
    Form.AgreesWhere Form.ToEnd (Form.ofBranches (Form.ofReversed items :: branches))
      (Form.ofBranches (Form.ofReversed (anchor .dollar dollar ++ items) :: branches)) := by
  cases dollar with
  | false => exact .refl _ _
  | true => exact (Form.agreesWhere_dollar items).ofBranches_cons branches

/-- Both anchors together make a form deeper by one at most. -/
theorem Leads.depth_le (h : Leads (anchor .caret caret) items branches items' branches')
    (dollar : Bool) (within : Option Form.Chain) :
    (Form.ofBranches
        (Form.ofReversed (anchor .dollar dollar ++ items') :: branches')).depth within ≤
      (Form.ofBranches (Form.ofReversed items :: branches)).depth within + 1 := by
  have hcaret : ∀ items, (Form.ofReversed (items ++ anchor .caret caret)).depth (some .concat) =
      (Form.ofReversed items).depth (some .concat) := by
    intro items
    cases caret with
    | false => rw [anchor, if_neg Bool.false_ne_true, List.append_nil]
    | true => exact Form.depth_caret items
  have hdollar : ∀ items, (Form.ofReversed (anchor .dollar dollar ++ items)).depth (some .concat) =
      (Form.ofReversed items).depth (some .concat) := by
    intro items
    cases dollar with
    | false => rfl
    | true => exact Form.depth_dollar items
  have hrow : ∀ {items items' : List Form}, (∀ f ∈ items, f.IsItem) →
      (Form.ofReversed items').depth (some .concat) =
        (Form.ofReversed items).depth (some .concat) →
      ∀ within,
        (Form.ofReversed items').depth within ≤ (Form.ofReversed items).depth within + 1 := by
    intro items items' hitems heq within
    have hle := Form.depth_le_succ within (Form.ofReversed items')
    have hge := Form.depth_ofReversed_le hitems within
    omega
  refine Form.depth_ofBranches_le ?_ within
  cases h with
  | first hitems =>
    exact .cons (hrow hitems ((hdollar _).trans (hcaret items))) .nil
  | later between hitems hfirst =>
    refine .cons (hrow hitems (hdollar items)) (List.rel_append ?_ ?_)
    · exact List.forall₂_same.2 fun b _ within => Nat.le_succ _
    · exact .cons (hrow hfirst (hcaret _)) .nil

end Reader

end Regex

end Rehearsal
