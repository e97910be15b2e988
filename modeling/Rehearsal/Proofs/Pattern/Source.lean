import Mathlib.Data.List.TakeWhile
import Rehearsal.Pattern.Placeholder

/-!
# How the text of a pattern reads

`PatternPiece.Writes` is the notation of patterns as a grammar: which pieces a text writes. A text
writes at most one sequence of pieces (`Writes.unique`), and that is what the scanner reads
(`writes_all`). What the scanner does is put down as a relation with a case for each of its steps
(`Scans`, `scans_scan`).
-/

namespace Rehearsal

namespace PatternPiece

variable {types : ParameterTypes}

def named (name : List Char) : Option String :=
  if name.isEmpty then none else some (String.ofList name)

/-- The text between braces writes the placeholder. The first colon ends the name. -/
inductive WritesInner (types : ParameterTypes) : List Char → PatternPiece → Prop where
  | untyped {inner : List Char} (h : ':' ∉ inner) :
      WritesInner types inner (.placeholder (named (Text.trimChars inner)) none)
  | typed {name typeName : List Char} {type : ParameterType} (h : ':' ∉ name)
      (htype : types.find? (String.ofList (Text.trimChars typeName)) = some type) :
      WritesInner types (name ++ ':' :: typeName)
        (.placeholder (named (Text.trimChars name)) (some type))

/-- The text writes the pieces: every character stands for itself, apart from braces, which are
doubled or enclose a placeholder. -/
inductive Writes (types : ParameterTypes) : List Char → List PatternPiece → Prop where
  | nil : Writes types [] []
  | plain {c : Char} {cs : List Char} {pieces : List PatternPiece} (hc : isBrace c = false)
      (h : Writes types cs pieces) : Writes types (c :: cs) (.literal c :: pieces)
  | doubled {c : Char} {cs : List Char} {pieces : List PatternPiece} (hc : isBrace c = true)
      (h : Writes types cs pieces) : Writes types (c :: c :: cs) (.literal c :: pieces)
  | placeholder {inner cs : List Char} {piece : PatternPiece} {pieces : List PatternPiece}
      (hinner : ∀ c ∈ inner, isBrace c = false) (hpiece : WritesInner types inner piece)
      (h : Writes types cs pieces) :
      Writes types ('\x7b' :: (inner ++ '\x7d' :: cs)) (piece :: pieces)

/-- Text without braces writes itself. -/
theorem writes_plain (types : ParameterTypes) {cs : List Char} (h : ∀ c ∈ cs, isBrace c = false) :
    Writes types cs (cs.map .literal) := by
  induction cs with
  | nil => exact .nil
  | cons c cs ih =>
    obtain ⟨hc, hcs⟩ := List.forall_mem_cons.1 h
    exact .plain hc (ih hcs)

/-! ### One reading -/

/-- What comes before and after the first character at which something ends. -/
theorem eq_of_append_cons_eq {p : Char → Bool} {as bs as' bs' : List Char} {a a' : Char}
    (has : ∀ c ∈ as, p c = true) (has' : ∀ c ∈ as', p c = true) (ha : p a = false)
    (ha' : p a' = false) (h : as ++ a :: bs = as' ++ a' :: bs') : as = as' ∧ bs = bs' := by
  have htake := congrArg (List.takeWhile p) h
  have hdrop := congrArg (List.dropWhile p) h
  simp [List.takeWhile_append_of_pos has, List.takeWhile_append_of_pos has', ha, ha'] at htake
  simp [List.dropWhile_append_of_pos has, List.dropWhile_append_of_pos has', ha, ha'] at hdrop
  exact ⟨htake, hdrop.2⟩

theorem WritesInner.unique {inner : List Char} {piece piece' : PatternPiece}
    (h : WritesInner types inner piece) (h' : WritesInner types inner piece') : piece = piece' := by
  cases h with
  | untyped hcolon =>
    cases h' with
    | untyped => rfl
    | typed => simp at hcolon
  | @typed name typeName type hcolon htype =>
    generalize htext : name ++ ':' :: typeName = inner at h'
    cases h' with
    | untyped hcolon' => simp [← htext] at hcolon'
    | typed hcolon' htype' =>
      obtain ⟨rfl, rfl⟩ := eq_of_append_cons_eq (p := (· != ':'))
        (by simpa using fun c hc => ne_of_mem_of_not_mem hc hcolon)
        (by simpa using fun c hc => ne_of_mem_of_not_mem hc hcolon') (by simp) (by simp) htext
      rw [Option.some.inj (htype.symm.trans htype')]

/-- Neither brace of a doubled one opens a placeholder. -/
theorem doubled_ne_placeholder {c : Char} {cs inner rest : List Char}
    (hinner : ∀ c ∈ inner, isBrace c = false) :
    c :: c :: cs ≠ '\x7b' :: (inner ++ '\x7d' :: rest) := by
  intro htext
  obtain ⟨rfl, htext⟩ := List.cons.inj htext
  cases inner with
  | nil => cases htext
  | cons c' inner =>
    obtain ⟨rfl, -⟩ := List.cons.inj htext
    cases hinner _ List.mem_cons_self

theorem Writes.unique {cs : List Char} {pieces pieces' : List PatternPiece}
    (h : Writes types cs pieces) (h' : Writes types cs pieces') : pieces = pieces' := by
  induction h generalizing pieces' with
  | nil =>
    cases h'
    rfl
  | plain hc _ ih =>
    cases h' with
    | plain _ h' => rw [ih h']
    | doubled hc' => simp [hc'] at hc
    | placeholder => cases hc
  | @doubled c cs pieces hc _ ih =>
    generalize htext : c :: c :: cs = text at h'
    cases h' with
    | nil => cases htext
    | plain hc' =>
      obtain ⟨rfl, -⟩ := List.cons.inj htext
      simp [hc'] at hc
    | doubled _ h' =>
      obtain ⟨rfl, -, rfl⟩ := by simpa using htext
      rw [ih h']
    | placeholder hinner => exact absurd htext (doubled_ne_placeholder hinner)
  | @placeholder inner cs piece pieces hinner hpiece _ ih =>
    generalize htext : '\x7b' :: (inner ++ '\x7d' :: cs) = text at h'
    cases h' with
    | nil => cases htext
    | plain hc' =>
      obtain ⟨rfl, -⟩ := List.cons.inj htext
      cases hc'
    | doubled => exact absurd htext.symm (doubled_ne_placeholder hinner)
    | placeholder hinner' hpiece' h' =>
      obtain ⟨-, htext⟩ := List.cons.inj htext
      obtain ⟨rfl, rfl⟩ := eq_of_append_cons_eq (p := fun c => !isBrace c)
        (by simpa using hinner) (by simpa using hinner') (by decide) (by decide) htext
      rw [hpiece.unique hpiece', ih h']

/-! ### The scanner -/

theorem exists_of_map_eq_ok {ε α β : Type} {f : α → β} {x : Except ε α} {b : β}
    (h : x.map f = .ok b) : ∃ a, x = .ok a ∧ f a = b := by
  cases x with
  | error e => cases h
  | ok a => exact ⟨a, rfl, Except.ok.inj h⟩

/-- A text cut at its first colon. -/
theorem splitInner_cases (inner : List Char) :
    (':' ∉ inner ∧ splitInner inner = (Text.trimChars inner, none)) ∨
      ∃ name typeName, inner = name ++ ':' :: typeName ∧ ':' ∉ name ∧
        splitInner inner = (Text.trimChars name, some (Text.trimChars typeName)) := by
  have hcut := List.takeWhile_append_dropWhile (p := (· != ':')) (l := inner)
  have hname : ':' ∉ inner.takeWhile (· != ':') := fun hmem => by
    simpa using List.mem_takeWhile_imp hmem
  rw [splitInner]
  cases hrest : inner.dropWhile (· != ':') with
  | nil =>
    rw [hrest, List.append_nil] at hcut
    exact .inl ⟨hcut ▸ hname, rfl⟩
  | cons c typeName =>
    have hc : c = ':' := by
      have hhead := List.head_dropWhile_not (· != ':') (l := inner) (by simp [hrest])
      simpa [hrest] using hhead
    subst hc
    exact .inr ⟨_, typeName, by rw [← hrest, hcut], hname, rfl⟩

theorem writesInner_of_ofInner {pattern : String} {names : List String} {position : Nat}
    {inner : List Char} {piece : PatternPiece}
    (h : ofInner types pattern names position inner = .ok piece) :
    WritesInner types inner piece := by
  rw [ofInner] at h
  obtain ⟨hcolon, hsplit⟩ | ⟨name, typeName, rfl, hcolon, hsplit⟩ := splitInner_cases inner
  · have hpiece : WritesInner types inner _ := .untyped hcolon
    simp only [hsplit] at h
    rw [named] at hpiece
    split_ifs at h hpiece
    all_goals
      cases h
      exact hpiece
  · simp only [hsplit] at h
    cases hempty : Text.trimChars typeName with
    | nil =>
      simp only [hempty] at h
      split_ifs at h
    | cons c cs =>
      simp only [hempty] at h
      split_ifs at h with hvalid hdistinct hname
      all_goals
        split at h
        · rename_i type hfind
          cases h
          have hpiece : WritesInner types (name ++ ':' :: typeName) _ :=
            .typed hcolon (hempty ▸ hfind)
          simpa [named, hname] using hpiece
        · cases h

/-- A way to scan the text behind the first `n` bytes of a pattern, with the names used in these,
and what comes of it. -/
inductive Scans (types : ParameterTypes) (pattern : String) :
    List String → Nat → List Char → Except PatternError (List PatternPiece) → Prop where
  | nil {names : List String} {n : Nat} : Scans types pattern names n [] (.ok [])
  | plain {names : List String} {n : Nat} {c : Char} {cs : List Char}
      {result : Except PatternError (List PatternPiece)} (hc : isBrace c = false)
      (h : Scans types pattern names (n + c.utf8Size) cs result) :
      Scans types pattern names n (c :: cs) (result.map (.literal c :: ·))
  | doubled {names : List String} {n : Nat} {c : Char} {cs : List Char}
      {result : Except PatternError (List PatternPiece)} (hc : isBrace c = true)
      (h : Scans types pattern names (n + 2) cs result) :
      Scans types pattern names n (c :: c :: cs) (result.map (.literal c :: ·))
  | placeholder {names : List String} {n : Nat} {inner cs : List Char} {piece : PatternPiece}
      {result : Except PatternError (List PatternPiece)}
      (hinner : ∀ c ∈ inner, isBrace c = false)
      (hpiece : ofInner types pattern names n inner = .ok piece)
      (h : Scans types pattern (addName names piece) (n + 2 + Text.byteLength inner) cs result) :
      Scans types pattern names n ('\x7b' :: (inner ++ '\x7d' :: cs)) (result.map (piece :: ·))
  | refused {names : List String} {n : Nat} {inner cs : List Char} {e : PatternError}
      (hinner : ∀ c ∈ inner, isBrace c = false)
      (herror : ofInner types pattern names n inner = .error e) :
      Scans types pattern names n ('\x7b' :: (inner ++ '\x7d' :: cs)) (.error e)
  | missing {names : List String} {n : Nat} {cs : List Char} :
      Scans types pattern names n ('\x7b' :: cs) (.error (.placeholder pattern .missingClosing n))
  | unmatched {names : List String} {n : Nat} {cs : List Char} :
      Scans types pattern names n ('\x7d' :: cs)
        (.error (.placeholder pattern .unmatchedClosing n))

variable {pattern : String} {names : List String} {n : Nat} {cs : List Char}
  {result : Except PatternError (List PatternPiece)} {pieces : List PatternPiece}

/-- By induction on the length of the text, since a placeholder is longer than one character. -/
theorem scans_scan (types : ParameterTypes) (pattern : String) (names : List String) (n : Nat)
    (cs : List Char) : Scans types pattern names n cs (scan types pattern names n cs) := by
  induction hlength : cs.length using Nat.strongRecOn generalizing names n cs with
  | ind k ih =>
    have hshorter : ∀ {names n rest}, rest.length < k →
        Scans types pattern names n rest (scan types pattern names n rest) :=
      fun hlt => ih _ hlt _ _ _ rfl
    rw [scan.eq_def]
    split
    · exact .nil
    · rename_i c rest
      simp only [List.length_cons] at hlength
      split_ifs with hopen hclose
      · subst hopen
        split
        · exact .doubled (by decide) (hshorter (by simp at hlength; omega))
        · simp only
          split
          · rename_i after hdrop
            -- a placeholder goes up to the first brace after the one that opens it
            have hcut := List.takeWhile_append_dropWhile (p := fun x => !isBrace x) (l := rest)
            have hinner : ∀ c ∈ rest.takeWhile (fun x => !isBrace x), isBrace c = false :=
              fun c hc => by simpa using List.mem_takeWhile_imp hc
            generalize rest.takeWhile (fun x => !isBrace x) = inner at hcut hinner ⊢
            rw [hdrop] at hcut
            subst hcut
            split
            · rename_i piece hpiece
              exact .placeholder hinner hpiece (hshorter (by simp at hlength; omega))
            · rename_i e herror
              exact .refused hinner herror
          · exact .missing
      · subst hclose
        split
        · exact .doubled (by decide) (hshorter (by simp at hlength; omega))
        · exact .unmatched
      · exact .plain (by simp [isBrace, hopen, hclose]) (hshorter (by omega))

theorem Scans.writes (h : Scans types pattern names n cs result) (hresult : result = .ok pieces) :
    Writes types cs pieces := by
  induction h generalizing pieces with
  | nil =>
    cases hresult
    exact .nil
  | plain hc _ ih =>
    obtain ⟨pieces, hrest, rfl⟩ := exists_of_map_eq_ok hresult
    exact .plain hc (ih hrest)
  | doubled hc _ ih =>
    obtain ⟨pieces, hrest, rfl⟩ := exists_of_map_eq_ok hresult
    exact .doubled hc (ih hrest)
  | placeholder hinner hpiece _ ih =>
    obtain ⟨pieces, hrest, rfl⟩ := exists_of_map_eq_ok hresult
    exact .placeholder hinner (writesInner_of_ofInner hpiece) (ih hrest)
  | refused => cases hresult
  | missing => cases hresult
  | unmatched => cases hresult

/-- The pieces of a pattern are what its text writes. -/
theorem writes_all {source : String} {pieces : List PatternPiece}
    (h : all types source = .ok pieces) : Writes types source.toList pieces :=
  (scans_scan types source [] 0 source.toList).writes h

end PatternPiece

end Rehearsal
