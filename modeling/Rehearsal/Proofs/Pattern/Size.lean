import Rehearsal.Proofs.Pattern.Whole

/-!
# Which patterns are too large

A pattern with valid placeholders of built-in types is read in any case, and it is nested only a few
levels. What can still refuse it is the limit on the memory of its automata
(`exists_ofPlaceholders_iff`), and each piece takes a known part of that at most
(`exists_ofPlaceholders_of_totalWeight`).
-/

namespace Rehearsal

/-- The expression of a pattern as it is written for its pieces. -/
def StepPattern.expression (pieces : List PatternPiece) : String :=
  "^(?:" ++ String.ofList (body 0 pieces) ++ ")$"

namespace Regex

open PatternPiece

variable {types : ParameterTypes} {source : String} {pieces : List PatternPiece}

theorem depth_ofReversed_le_succ {items : List Form} {n : Nat}
    (h : ∀ f ∈ items, ∀ within, f.depth within ≤ n) (within : Option Form.Chain) :
    (Form.ofReversed items).depth within ≤ 1 + n := by
  have hfold : ∀ (items : List Form) (a : Form), a.depth (some .concat) ≤ n →
      (∀ f ∈ items, ∀ within, f.depth within ≤ n) →
      (items.foldl (fun acc b => Form.concat b acc) a).depth (some .concat) ≤ n := by
    intro items
    induction items with
    | nil => exact fun a ha _ => ha
    | cons b items ih =>
      intro a ha h
      obtain ⟨hb, hitems⟩ := List.forall_mem_cons.1 h
      exact ih _ (by simpa [Form.depth, Nat.max_le] using And.intro (hb _) ha) hitems
  cases items with
  | nil => exact Nat.zero_le _
  | cons a items =>
    obtain ⟨ha, hitems⟩ := List.forall_mem_cons.1 h
    exact (Form.depth_le_succ within _).trans (Nat.add_le_add_left (hfold items a (ha _) hitems) 1)

/-- What takes up memory between the ends of the text takes little more with them. -/
theorem Weighs.between {R : Regex} {k : Nat} (h : R.Weighs k) : R.between.Weighs (k + 64) :=
  ((weighs_look .textStart).seq (h.enclosed.seq (weighs_look .textEnd))).mono (by omega)

/-- The expression of a pattern is read, it is nested so little that its size alone counts, and it
takes no more memory than all pieces. -/
theorem exists_reads_expression (hbuiltIn : AllBuiltIn pieces) :
    ∃ form c, Reads (StepPattern.expression pieces) form c ∧ form.depth none ≤ nestingLimit ∧
      c.root.Weighs (totalWeight pieces + 64) := by
  obtain ⟨forms, R, hread, hmeaning, htracks, hdepth, hweighs⟩ := exists_expression hbuiltIn 0
  have hstate := read_anchored (hread [] [anchorGroup] [')', '$'])
  rw [List.append_nil] at hstate
  refine ⟨_, ⟨R.between, _⟩, ⟨_, _, hstate, rfl, rfl, meaning_between hmeaning, rfl⟩, ?_,
    hweighs.between⟩
  have hbody := @depth_ofReversed_le_succ forms.reverse _ (by simpa using hdepth) none
  have hlimit : nestingLimit = 250 := rfl
  simp only [Reader.State.inner, Form.ofBranches, Form.ofReversed, List.foldl_cons, List.foldl_nil,
    Form.depth, reduceCtorEq, if_false, if_true] at hbody ⊢
  omega

/-- A pattern with valid placeholders of built-in types is refused for the size of its expression
alone. -/
theorem exists_ofPlaceholders_iff (hpieces : PatternPiece.all types source = .ok pieces)
    {form : Form} {c : Compiled} (hreads : Reads (StepPattern.expression pieces) form c)
    (hdepth : form.depth none ≤ nestingLimit) :
    (∃ p, StepPattern.ofPlaceholders types source = .ok p) ↔ c.root.fits = true := by
  rw [StepPattern.ofPlaceholders, hpieces]
  constructor
  · rintro ⟨p, hp⟩
    dsimp only at hp
    split at hp
    · cases hp
    · rename_i r hanchored
      obtain ⟨form', hreads', -, hfits⟩ :=
        compile?_eq_some_iff.1 (StepPattern.anchored_eq_ok_iff.1 hanchored)
      obtain ⟨-, rfl⟩ := hreads'.unique hreads
      exact hfits
  · intro hfits
    have hanchored := (@StepPattern.anchored_eq_ok_iff source _ _).2
      (compile?_eq_some_iff.2 ⟨form, hreads, hdepth, hfits⟩)
    exact ⟨_, by simp only [hanchored]; rfl⟩

/-- A pattern of a moderate size is accepted. -/
theorem exists_ofPlaceholders_of_totalWeight (hpieces : PatternPiece.all types source = .ok pieces)
    (hbuiltIn : AllBuiltIn pieces) (hweight : totalWeight pieces + 304 ≤ Memory.limit) :
    ∃ p, StepPattern.ofPlaceholders types source = .ok p := by
  obtain ⟨form, c, hreads, hdepth, hweighs⟩ := exists_reads_expression hbuiltIn
  exact (exists_ofPlaceholders_iff hpieces hreads hdepth).2 (hweighs.fits (by omega))

end Regex

end Rehearsal
