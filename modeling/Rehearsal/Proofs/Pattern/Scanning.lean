import Rehearsal.Proofs.Pattern.Placement

/-!
# What the scanner accepts

A text is accepted if and only if it writes pieces whose names and types are in order: every name is
made of letters, digits and underscores and occurs once, and every type has a name (`Writes`,
`Orderly`, `all_eq_ok_iff`). Where a brace is refused, all that stands before it is accepted
(`Scans.refusedAt`).
-/

namespace Rehearsal

/-- The error is about a placeholder or about the type of one. -/
def PatternError.IsOfPlaceholder : PatternError → Prop
  | placeholder .. | unknownType .. => True
  | regex _ | duplicateType _ => False

namespace PatternPiece

def name? : PatternPiece → Option String
  | placeholder name _ => name
  | literal _ => none

def type? : PatternPiece → Option ParameterType
  | placeholder _ type => type
  | literal _ => none

def slot? : PatternPiece → Option (Option String × Option ParameterType)
  | placeholder name type => some (name, type)
  | literal _ => none

/-- The name is valid and none of those used before, and the type is named. -/
def Suits (names : List String) (piece : PatternPiece) : Prop :=
  (∀ name ∈ piece.name?, isNameText name.toList = true ∧ name ∉ names) ∧
    ∀ type ∈ piece.type?, type.name ≠ ""

/-- The names of the placeholders are valid and all different, and their types are named. -/
structure Orderly (pieces : List PatternPiece) : Prop where
  valid : ∀ name ∈ pieces.filterMap name?, isNameText name.toList = true
  distinct : (pieces.filterMap name?).Nodup
  typed : ∀ type ∈ pieces.filterMap type?, type.name ≠ ""

variable {types : ParameterTypes} {pattern : String} {names : List String} {n : Nat}
  {piece : PatternPiece} {pieces : List PatternPiece}

theorem orderly_iff : Orderly pieces ↔
    (∀ name ∈ pieces.filterMap name?, isNameText name.toList = true) ∧
      (pieces.filterMap name?).Nodup ∧ ∀ type ∈ pieces.filterMap type?, type.name ≠ "" :=
  ⟨fun h => ⟨h.valid, h.distinct, h.typed⟩, fun h => ⟨h.1, h.2.1, h.2.2⟩⟩

theorem addName_eq (names : List String) (piece : PatternPiece) :
    addName names piece = piece.name?.toList ++ names := by
  cases piece with
  | literal c => rfl
  | placeholder name type => cases name <;> rfl

/-- Pieces are in order after some names if the first one suits these and the others are in order
after its name too. -/
theorem orderly_cons_iff :
    (Orderly (piece :: pieces) ∧ ∀ name ∈ (piece :: pieces).filterMap name?, name ∉ names) ↔
      piece.Suits names ∧
        Orderly pieces ∧ ∀ name ∈ pieces.filterMap name?, name ∉ addName names piece := by
  have htyped : (∀ type ∈ (piece :: pieces).filterMap type?, type.name ≠ "") ↔
      (∀ type ∈ piece.type?, type.name ≠ "") ∧
        ∀ type ∈ pieces.filterMap type?, type.name ≠ "" := by
    cases h : piece.type? <;> simp [h]
  rw [orderly_iff, orderly_iff, htyped, Suits, addName_eq]
  cases hname : piece.name? with
  | none =>
    simp only [List.filterMap_cons_none hname, Option.toList_none, List.nil_append]
    simp only [Option.not_mem_none, false_imp_iff, implies_true, true_and]
    tauto
  | some name =>
    simp only [List.filterMap_cons_some hname, List.nodup_cons, Option.mem_some_iff, forall_eq',
      Option.toList_some, List.singleton_append, List.mem_cons, not_or]
    grind

theorem orderly_literal_iff {c : Char} :
    (Orderly (literal c :: pieces) ∧ ∀ name ∈ (literal c :: pieces).filterMap name?, name ∉ names) ↔
      Orderly pieces ∧ ∀ name ∈ pieces.filterMap name?, name ∉ names :=
  orderly_cons_iff.trans (and_iff_right ⟨by simp [name?], by simp [type?]⟩)

/-! ### One placeholder -/

theorem suits_named_iff {name : List Char} {type : Option ParameterType} :
    (placeholder (named name) type).Suits names ↔
      (isNameText name = true ∧ ¬ (!name.isEmpty && names.contains (String.ofList name)) = true) ∧
        ∀ t ∈ type, t.name ≠ "" := by
  refine and_congr_left fun _ => ?_
  cases name with
  | nil => simp [named, name?, isNameText]
  | cons c cs => simp [named, name?]

/-- What is read between braces suits the names used before. -/
theorem suits_of_ofInner {inner : List Char}
    (h : ofInner types pattern names n inner = .ok piece) : piece.Suits names := by
  rw [ofInner] at h
  obtain ⟨-, hsplit⟩ | ⟨name, typeName, rfl, -, hsplit⟩ := splitInner_cases inner
  · simp only [hsplit, ← named.eq_1] at h
    split_ifs at h with hvalid hused
    cases h
    exact suits_named_iff.2 ⟨⟨by simpa using hvalid, hused⟩, by simp⟩
  · simp only [hsplit, ← named.eq_1] at h
    split_ifs at h with hvalid hused
    cases htype : Text.trimChars typeName with
    | nil =>
      rw [htype] at h
      cases h
    | cons c cs =>
      rw [htype] at h
      dsimp only at h
      split at h
      · rename_i type hfind
        cases h
        refine suits_named_iff.2 ⟨⟨by simpa using hvalid, hused⟩, fun t ht => ?_⟩
        obtain rfl := Option.some.inj ht
        rw [types.find?_name _ _ hfind]
        simp
      · cases h

/-- A placeholder that suits the names used before is read as it was written. -/
theorem WritesInner.ofInner {inner : List Char} (h : WritesInner types inner piece)
    (hsuits : piece.Suits names) : ofInner types pattern names n inner = .ok piece := by
  rw [PatternPiece.ofInner]
  cases h with
  | untyped hcolon =>
    obtain ⟨-, hsplit⟩ | ⟨name, typeName, rfl, -, -⟩ := splitInner_cases inner
    · obtain ⟨⟨hvalid, hused⟩, -⟩ := suits_named_iff.1 hsuits
      simp only [hsplit, ← named.eq_1]
      rw [if_neg (by simpa using hvalid), if_neg hused]
    · simp at hcolon
  | @typed name typeName type hcolon hfind =>
    obtain ⟨hnone, -⟩ | ⟨name', typeName', heq, hcolon', hsplit⟩ :=
      splitInner_cases (name ++ ':' :: typeName)
    · simp at hnone
    obtain ⟨rfl, rfl⟩ := eq_of_append_cons_eq (p := (· != ':'))
      (by simpa using fun c hc => ne_of_mem_of_not_mem hc hcolon)
      (by simpa using fun c hc => ne_of_mem_of_not_mem hc hcolon') (by simp) (by simp) heq
    obtain ⟨⟨hvalid, hused⟩, htyped⟩ := suits_named_iff.1 hsuits
    have hname := htyped type rfl
    rw [types.find?_name _ _ hfind] at hname
    simp only [hsplit, ← named.eq_1]
    rw [if_neg (by simpa using hvalid), if_neg hused]
    cases htype : Text.trimChars typeName with
    | nil => simp [htype] at hname
    | cons c cs =>
      rw [htype] at hfind
      simp only [hfind]

/-- Only braces at the place where the placeholder begins are blamed for what is between them. -/
theorem of_ofInner_eq_error {inner : List Char} {e : PatternError}
    (h : ofInner types pattern names n inner = .error e) :
    (∃ fault, e = .placeholder pattern fault n ∧ fault ≠ .unmatchedClosing) ∨
      ∃ typeName, e = .unknownType pattern typeName := by
  rw [PatternPiece.ofInner] at h
  dsimp only at h
  split_ifs at h
  · cases h
    exact .inl ⟨_, rfl, by decide⟩
  · cases h
    exact .inl ⟨_, rfl, by decide⟩
  all_goals
    split at h
    · cases h
    · cases h
      exact .inl ⟨_, rfl, by decide⟩
    · split at h
      · cases h
      · cases h
        exact .inr ⟨_, rfl⟩

/-! ### The whole text -/

theorem scan_plain {c : Char} {cs : List Char} (hc : isBrace c = false) :
    scan types pattern names n (c :: cs) =
      (scan types pattern names (n + c.utf8Size) cs).map (literal c :: ·) := by
  have hopen : c ≠ '\x7b' := by
    rintro rfl
    cases hc
  have hclose : c ≠ '\x7d' := by
    rintro rfl
    cases hc
  rw [scan.eq_def]
  simp [hopen, hclose]

theorem scan_doubled {c : Char} {cs : List Char} (hc : isBrace c = true) :
    scan types pattern names n (c :: c :: cs) =
      (scan types pattern names (n + 2) cs).map (literal c :: ·) := by
  have hbrace : c = '\x7b' ∨ c = '\x7d' := by simpa [isBrace] using hc
  rw [scan.eq_def]
  rcases hbrace with rfl | rfl <;> simp

theorem scan_placeholder {inner cs : List Char} (hinner : ∀ c ∈ inner, isBrace c = false)
    (hpiece : ofInner types pattern names n inner = .ok piece) :
    scan types pattern names n ('\x7b' :: (inner ++ '\x7d' :: cs)) =
      (scan types pattern (addName names piece) (n + 2 + Text.byteLength inner) cs).map
        (piece :: ·) := by
  have hplain : ∀ c ∈ inner, (!isBrace c) = true := by simpa using hinner
  have htake : (inner ++ '\x7d' :: cs).takeWhile (fun x => !isBrace x) = inner := by
    rw [List.takeWhile_append_of_pos hplain]
    simp [isBrace]
  have hdrop : (inner ++ '\x7d' :: cs).dropWhile (fun x => !isBrace x) = '\x7d' :: cs := by
    rw [List.dropWhile_append_of_pos hplain]
    simp [isBrace]
  rw [scan.eq_def]
  simp only [if_true]
  split
  · rename_i rest heq
    cases inner with
    | nil => cases heq
    | cons c inner =>
      obtain ⟨rfl, -⟩ := List.cons.inj heq
      cases hinner _ List.mem_cons_self
  · simp only [htake, hpiece]
    split
    · rename_i after hafter
      obtain rfl : cs = after := by simpa [hdrop] using hafter
      rfl
    · rename_i hnone
      exact absurd hdrop (hnone cs)

theorem Scans.orderly {result : Except PatternError (List PatternPiece)} {cs : List Char}
    (h : Scans types pattern names n cs result) (hresult : result = .ok pieces) :
    Orderly pieces ∧ ∀ name ∈ pieces.filterMap name?, name ∉ names := by
  induction h generalizing pieces with
  | nil =>
    cases hresult
    exact ⟨⟨by simp, by simp, by simp⟩, by simp⟩
  | plain _ _ ih =>
    obtain ⟨pieces, hrest, rfl⟩ := exists_of_map_eq_ok hresult
    exact orderly_literal_iff.2 (ih hrest)
  | doubled _ _ ih =>
    obtain ⟨pieces, hrest, rfl⟩ := exists_of_map_eq_ok hresult
    exact orderly_literal_iff.2 (ih hrest)
  | placeholder _ hpiece _ ih =>
    obtain ⟨pieces, hrest, rfl⟩ := exists_of_map_eq_ok hresult
    exact orderly_cons_iff.2 ⟨suits_of_ofInner hpiece, ih hrest⟩
  | refused => cases hresult
  | missing => cases hresult
  | unmatched => cases hresult

theorem Writes.scan {cs : List Char} (h : Writes types cs pieces)
    (horderly : Orderly pieces ∧ ∀ name ∈ pieces.filterMap name?, name ∉ names) (n : Nat) :
    scan types pattern names n cs = .ok pieces := by
  induction h generalizing names n with
  | nil => rw [PatternPiece.scan]
  | plain hc h ih =>
    rw [scan_plain hc, ih (orderly_literal_iff.1 horderly)]
    rfl
  | doubled hc h ih =>
    rw [scan_doubled hc, ih (orderly_literal_iff.1 horderly)]
    rfl
  | placeholder hinner hpiece h ih =>
    obtain ⟨hsuits, hrest⟩ := orderly_cons_iff.1 horderly
    rw [scan_placeholder hinner (hpiece.ofInner hsuits), ih hrest]
    rfl

/-- The text is accepted if and only if it writes pieces that are in order. -/
theorem all_eq_ok_iff {source : String} : all types source = .ok pieces ↔
    Writes types source.toList pieces ∧ Orderly pieces :=
  ⟨fun h => ⟨writes_all h, ((scans_scan ..).orderly h).1⟩,
    fun ⟨hwrites, horderly⟩ => hwrites.scan ⟨horderly, by simp⟩ 0⟩

/-! ### Where a brace is refused -/

theorem eq_error_of_map_eq_error {ε α β : Type} {f : α → β} {x : Except ε α} {e : ε}
    (h : x.map f = .error e) : x = .error e := by
  cases x with
  | error e' =>
    cases h
    rfl
  | ok a => cases h

/-- A brace is refused, with pieces in order before it. Only a closing brace is refused for want of
an opening one. -/
def RefusedAt (types : ParameterTypes) (names : List String) (cs : List Char)
    (fault : PlaceholderFault) (n : Nat) : Prop :=
  ∃ before c after pieces, cs = before ++ c :: after ∧ n = Text.byteLength before ∧
    isBrace c = true ∧ (c = '\x7d' ↔ fault = .unmatchedClosing) ∧ Writes types before pieces ∧
      Orderly pieces ∧ ∀ name ∈ pieces.filterMap name?, name ∉ names

variable {cs : List Char} {fault : PlaceholderFault}

theorem refusedAt_zero {c : Char} (hc : isBrace c = true)
    (hfault : c = '\x7d' ↔ fault = .unmatchedClosing) : RefusedAt types names (c :: cs) fault 0 :=
  ⟨[], c, cs, [], rfl, rfl, hc, hfault, .nil, ⟨by simp, by simp, by simp⟩, by simp⟩

theorem RefusedAt.plain {c : Char} (h : RefusedAt types names cs fault n)
    (hc : isBrace c = false) : RefusedAt types names (c :: cs) fault (c.utf8Size + n) := by
  obtain ⟨before, d, after, pieces, rfl, rfl, hd, hfault, hwrites, horderly⟩ := h
  exact ⟨c :: before, d, after, _, rfl, rfl, hd, hfault, .plain hc hwrites,
    orderly_literal_iff.2 horderly⟩

theorem RefusedAt.doubled {c : Char} (h : RefusedAt types names cs fault n)
    (hc : isBrace c = true) : RefusedAt types names (c :: c :: cs) fault (2 + n) := by
  obtain ⟨before, d, after, pieces, rfl, rfl, hd, hfault, hwrites, horderly⟩ := h
  have hsize : c.utf8Size = 1 := by
    have hbrace : c = '\x7b' ∨ c = '\x7d' := by simpa [isBrace] using hc
    rcases hbrace with rfl | rfl <;> rfl
  exact ⟨c :: c :: before, d, after, _, rfl, by simp [hsize]; omega, hd, hfault,
    .doubled hc hwrites, orderly_literal_iff.2 horderly⟩

theorem RefusedAt.placeholder {inner : List Char}
    (h : RefusedAt types (addName names piece) cs fault n)
    (hinner : ∀ c ∈ inner, isBrace c = false) (hpiece : WritesInner types inner piece)
    (hsuits : piece.Suits names) :
    RefusedAt types names ('\x7b' :: (inner ++ '\x7d' :: cs)) fault
      (2 + Text.byteLength inner + n) := by
  obtain ⟨before, d, after, pieces, rfl, rfl, hd, hfault, hwrites, horderly⟩ := h
  have hsize : '\x7b'.utf8Size = 1 ∧ '\x7d'.utf8Size = 1 := ⟨rfl, rfl⟩
  refine ⟨'\x7b' :: (inner ++ '\x7d' :: before), d, after, _, by simp, ?_, hd, hfault,
    .placeholder hinner hpiece hwrites, orderly_cons_iff.2 ⟨hsuits, horderly⟩⟩
  simp [Text.byteLength_append, hsize]
  omega

/-- What the scanner refuses is a type that is not known, or a brace with pieces in order before
it. -/
theorem Scans.refusedAt {result : Except PatternError (List PatternPiece)} {e : PatternError}
    (h : Scans types pattern names n cs result) (hresult : result = .error e) :
    (∃ typeName, e = .unknownType pattern typeName) ∨
      ∃ fault k, e = .placeholder pattern fault (n + k) ∧ RefusedAt types names cs fault k := by
  induction h with
  | nil => cases hresult
  | plain hc _ ih =>
    obtain hunknown | ⟨fault, k, rfl, hrefused⟩ := ih (eq_error_of_map_eq_error hresult)
    · exact .inl hunknown
    · exact .inr ⟨fault, _, by rw [Nat.add_assoc], hrefused.plain hc⟩
  | doubled hc _ ih =>
    obtain hunknown | ⟨fault, k, rfl, hrefused⟩ := ih (eq_error_of_map_eq_error hresult)
    · exact .inl hunknown
    · exact .inr ⟨fault, _, by rw [Nat.add_assoc], hrefused.doubled hc⟩
  | placeholder hinner hpiece _ ih =>
    obtain hunknown | ⟨fault, k, rfl, hrefused⟩ := ih (eq_error_of_map_eq_error hresult)
    · exact .inl hunknown
    · exact .inr ⟨fault, _, by simp only [Nat.add_assoc], hrefused.placeholder hinner
        (writesInner_of_ofInner hpiece) (suits_of_ofInner hpiece)⟩
  | refused _ herror =>
    cases hresult
    obtain ⟨fault, rfl, hfault⟩ | hunknown := of_ofInner_eq_error herror
    · exact .inr ⟨fault, 0, rfl, refusedAt_zero (by decide) (by simpa using hfault)⟩
    · exact .inl hunknown
  | missing =>
    cases hresult
    exact .inr ⟨_, 0, rfl, refusedAt_zero (by decide) (by decide)⟩
  | unmatched =>
    cases hresult
    exact .inr ⟨_, 0, rfl, refusedAt_zero (by decide) (by decide)⟩

end PatternPiece

namespace StepPattern

open PatternPiece

variable {types : ParameterTypes} {source : String} {p : StepPattern}

theorem exists_regex_of_anchored {body : String} {e : PatternError}
    (h : anchored source body = .error e) : e = .regex source := by
  rw [anchored] at h
  split at h
  · cases h
  · cases h
    rfl

/-- The errors about placeholders are those of the scanner. -/
theorem all_eq_error_iff {e : PatternError} (he : e.IsOfPlaceholder) :
    ofPlaceholders types source = .error e ↔ PatternPiece.all types source = .error e := by
  rw [ofPlaceholders]
  cases PatternPiece.all types source with
  | error e' => simp only [Except.error.injEq]
  | ok pieces =>
    refine ⟨fun h => ?_, fun h => by cases h⟩
    dsimp only at h
    split at h
    · rename_i e' hanchored
      cases h
      rw [exists_regex_of_anchored hanchored] at he
      exact he.elim
    · cases h

theorem isOfPlaceholder_of_all {e : PatternError} (h : PatternPiece.all types source = .error e) :
    e.IsOfPlaceholder := by
  obtain ⟨typeName, rfl⟩ | ⟨fault, k, rfl, -⟩ := (scans_scan ..).refusedAt h
  · trivial
  · trivial

/-- No placeholder of the text is refused exactly if the text writes pieces that are in order. -/
theorem exists_orderly_iff :
    (∀ e, ofPlaceholders types source = .error e → ¬ e.IsOfPlaceholder) ↔
      ∃ pieces, Writes types source.toList pieces ∧ Orderly pieces := by
  simp only [← all_eq_ok_iff]
  constructor
  · intro h
    cases hall : PatternPiece.all types source with
    | ok pieces => exact ⟨pieces, rfl⟩
    | error e =>
      have he := isOfPlaceholder_of_all hall
      exact absurd he (h e ((all_eq_error_iff he).2 hall))
  · rintro ⟨pieces, hall⟩ e he hof
    have herror := (all_eq_error_iff hof).1 he
    rw [hall] at herror
    cases herror

theorem map_placeholderParameters (names : List (Option String)) (i : Nat)
    (pieces : List PatternPiece) :
    (placeholderParameters names i pieces).map (fun q => (q.name, q.type)) =
      pieces.filterMap slot? := by
  induction pieces generalizing i with
  | nil => rfl
  | cons piece pieces ih =>
    cases piece with
    | literal c =>
      rw [List.filterMap_cons_none rfl]
      exact ih i
    | placeholder name type =>
      simpa [placeholderParameters, slot?] using ih (i + 1)

/-- No placeholder is refused exactly if the text is made of plain characters, doubled braces and
placeholders with valid names, all different, and with types of the table. The pattern then has the
parameters of its placeholders, in their order. Where a brace is refused, at the number of bytes
before it, no placeholder is refused in the text before it. -/
theorem placeholder_syntax_exact (types : ParameterTypes) (source : String) :
    ((∀ e, ofPlaceholders types source = .error e → ¬ e.IsOfPlaceholder) ↔
        ∃ pieces, Writes types source.toList pieces ∧ Orderly pieces) ∧
      (∀ p, ofPlaceholders types source = .ok p → ∃ pieces, Writes types source.toList pieces ∧
        Orderly pieces ∧ p.parameters.map (fun q => (q.name, q.type)) = pieces.filterMap slot?) ∧
      ∀ pattern fault n, ofPlaceholders types source = .error (.placeholder pattern fault n) →
        pattern = source ∧ ∃ before c after, source.toList = before ++ c :: after ∧
          n = Text.byteLength before ∧ isBrace c = true ∧
          (c = '\x7d' ↔ fault = .unmatchedClosing) ∧
          ∀ e, ofPlaceholders types (String.ofList before) = .error e → ¬ e.IsOfPlaceholder := by
  refine ⟨exists_orderly_iff, fun p hp => ?_, fun pattern fault n hn => ?_⟩
  · obtain ⟨pieces, hall, -, hparameters⟩ := exists_of_ofPlaceholders hp
    obtain ⟨hwrites, horderly⟩ := all_eq_ok_iff.1 hall
    exact ⟨pieces, hwrites, horderly, by rw [hparameters, map_placeholderParameters]⟩
  · have hall : PatternPiece.all types source = .error (.placeholder pattern fault n) :=
      (all_eq_error_iff (e := .placeholder pattern fault n) trivial).1 hn
    obtain ⟨typeName, heq⟩ | ⟨fault', k, heq, hrefused⟩ := (scans_scan ..).refusedAt hall
    · cases heq
    · cases heq
      obtain ⟨before, c, after, pieces, hsource, hk, hc, hfault, hwrites, horderly, -⟩ := hrefused
      refine ⟨rfl, before, c, after, hsource, by rw [Nat.zero_add, hk], hc, hfault, ?_⟩
      exact exists_orderly_iff.2 ⟨pieces, by simpa using hwrites, horderly⟩

end StepPattern

end Rehearsal
