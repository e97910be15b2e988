import Mathlib.Data.List.Forall2
import Rehearsal.Plan.Location
import Rehearsal.Proofs.Numeral
import Rehearsal.Text.Lines

/-!
# Written locations

A path followed by lines, each after a colon, is read as one location for each line, provided that
the path does not end in something that is read as a line itself (`Location.parseTrimmed?_append`).
`Location.IsLine` says what is read as a line; numbers are, as they are written
(`Location.parseTrimmed?_written`). Texts are cut at their separators only.
-/

namespace Rehearsal

namespace Text

theorem splitOn_of_not_mem {sep : Char} {cs : List Char} (h : sep ∉ cs) :
    splitOn sep cs = [cs] := by
  induction cs with
  | nil => rfl
  | cons c cs ih =>
    rw [List.mem_cons, not_or] at h
    rw [splitOn, if_neg (Ne.symm h.1), ih h.2]

/-- A text is cut at every separator, so what stands before one and what stands after it may be
cut on their own. -/
theorem splitOn_append (sep : Char) (xs ys : List Char) :
    splitOn sep (xs ++ sep :: ys) = splitOn sep xs ++ splitOn sep ys := by
  induction xs with
  | nil => simp [splitOn]
  | cons x xs ih =>
    rw [List.cons_append, splitOn, splitOn, ih]
    by_cases hx : x = sep
    · rw [if_pos hx, if_pos hx, List.cons_append]
    · rw [if_neg hx, if_neg hx]
      cases hparts : splitOn sep xs with
      | nil => exact absurd hparts (splitOn_ne_nil sep xs)
      | cons part rest => rfl

/-- The parts of a text that ends with lists after separators. -/
theorem splitOn_append_flatMap {sep : Char} (xs : List Char) {parts : List (List Char)}
    (h : ∀ part ∈ parts, sep ∉ part) :
    splitOn sep (xs ++ parts.flatMap (sep :: ·)) = splitOn sep xs ++ parts := by
  induction parts generalizing xs with
  | nil => simp
  | cons part rest ih =>
    rw [List.forall_mem_cons] at h
    rw [List.flatMap_cons, List.cons_append, splitOn_append, ih part h.2,
      splitOn_of_not_mem h.1, List.singleton_append]

theorem dropReturn_eq_self {cs : List Char} (h : cs.getLast? ≠ some '\r') : dropReturn cs = cs := by
  rw [List.getLast?_eq_head?_reverse] at h
  unfold dropReturn
  split
  · rename_i rest heq
    rw [heq] at h
    exact absurd rfl h
  · rfl

/-- Lines that are ended by line feeds are read as they are written. -/
theorem linesOfParts_written {ls : List (List Char)}
    (h : ∀ l ∈ ls, '\n' ∉ l ∧ l.getLast? ≠ some '\r') :
    linesOfParts (splitOn '\n' (ls.flatMap (· ++ ['\n']))) = ls := by
  induction ls with
  | nil => rfl
  | cons l rest ih =>
    rw [List.forall_mem_cons] at h
    rw [List.flatMap_cons, List.append_assoc, List.singleton_append, splitOn_append,
      splitOn_of_not_mem h.1.1, List.singleton_append, linesOfParts_cons _ _ (splitOn_ne_nil _ _),
      ih h.2, dropReturn_eq_self h.1.2]

end Text

namespace Location

/-- The text is read as the line: digits with a plus sign or none in front, a number of 32 bits. -/
structure IsLine (part : List Char) (n : Nat) : Prop where
  denotes : Number.Denotes part n
  unsigned : part.head? ≠ some '-'
  small : n ≤ 4294967295

theorem readLine?_eq_some_iff {part : List Char} {n : Nat} :
    readLine? part = some n ↔ IsLine part n := by
  rw [readLine?, Option.map_eq_some_iff]
  constructor
  · rintro ⟨m, hread, rfl⟩
    obtain ⟨hdenotes, hcontains, hsign⟩ :=
      (Number.readInt?_eq_some_iff (by decide) (by decide)).1 hread
    obtain ⟨hlo, hhi⟩ := Number.IntRange.contains_iff.1 hcontains
    obtain ⟨n, rfl⟩ := Int.eq_ofNat_of_zero_le hlo
    exact ⟨hdenotes, fun hc => absurd (hsign hc) (by decide), Int.ofNat_le.1 hhi⟩
  · rintro ⟨hdenotes, hsign, hle⟩
    have hcontains : Number.IntRange.unsigned32.contains n = true :=
      Number.IntRange.contains_iff.2 ⟨Int.natCast_nonneg n, Int.ofNat_le.2 hle⟩
    exact ⟨n, (Number.readInt?_eq_some_iff (by decide) (by decide)).2
      ⟨hdenotes, hcontains, fun hc => absurd hc hsign⟩, rfl⟩

/-- A number is written as a text that is read as the line. -/
theorem isLine_toDigits {n : Nat} (h : n ≤ 4294967295) : IsLine (Nat.toDigits 10 n) n := by
  refine ⟨Number.denotes_toDigits n, fun hc => ?_, h⟩
  have hdigit := Nat.isDigit_of_mem_toDigits (by decide) (by decide) (List.mem_of_mem_head? hc)
  cases hdigit

theorem IsLine.colon_not_mem {part : List Char} {n : Nat} (h : IsLine part n) : ':' ∉ part := by
  have hdigits : ∀ {ds : List Char}, (∀ d ∈ ds, d.isDigit = true) → ':' ∉ ds := fun hds hc =>
    absurd (hds _ hc) (by decide)
  obtain ⟨hdenotes, -, -⟩ := h
  generalize (n : Int) = m at hdenotes
  cases hdenotes with
  | unsigned _ hds => exact hdigits hds
  | plus _ hds | minus _ hds => simpa using hdigits hds

/-- Lines are taken off the end one by one. -/
theorem takeLines_append {parts : List (List Char)} {ns : List Nat}
    (h : List.Forall₂ IsLine parts ns) (lines : List Nat) {rest : List (List Char)}
    (hrest : rest ≠ []) :
    takeLines lines (parts ++ rest) = takeLines (ns.reverse ++ lines) rest := by
  induction h generalizing lines with
  | nil => rfl
  | @cons part n parts ns hline hlines ih =>
    obtain ⟨before, more, hmore⟩ :=
      List.exists_cons_of_ne_nil (List.append_ne_nil_of_right_ne_nil parts hrest)
    rw [List.cons_append, hmore, takeLines, readLine?_eq_some_iff.2 hline, ← hmore]
    dsimp only
    rw [ih, List.reverse_cons, List.append_assoc, List.singleton_append]

/-- The last part of the path after a colon, if it holds one, is not read as a line. -/
def EndsInName (path : List Char) : Prop :=
  ∀ parts last, Text.splitOn ':' path = parts ++ [last] → parts ≠ [] → readLine? last = none

theorem endsInName_of_not_mem {path : List Char} (h : ':' ∉ path) : EndsInName path := by
  intro parts last hsplit hparts
  rw [Text.splitOn_of_not_mem h] at hsplit
  cases parts with
  | nil => exact absurd rfl hparts
  | cons part rest =>
    have hlength := congrArg List.length hsplit
    simp at hlength

theorem endsInName_of_getLast? {path last : List Char}
    (hlast : (Text.splitOn ':' path).getLast? = some last) (hread : readLine? last = none) :
    EndsInName path := by
  intro parts part hsplit _
  rw [hsplit, List.getLast?_concat, Option.some.injEq] at hlast
  rwa [hlast]

theorem takeLines_path {path : List Char} (h : EndsInName path) (lines : List Nat) :
    takeLines lines (Text.splitOn ':' path).reverse = ((Text.splitOn ':' path).reverse, lines) := by
  cases hparts : (Text.splitOn ':' path).reverse with
  | nil => rfl
  | cons last rest =>
    cases rest with
    | nil => rfl
    | cons before more =>
      have hsplit : Text.splitOn ':' path = (before :: more).reverse ++ [last] := by
        rw [← List.reverse_cons, ← hparts, List.reverse_reverse]
      rw [takeLines, h _ _ hsplit (by simp)]

/-- The locations of a path with lines: one for each of them, or one without a line. -/
def ofLines (path : String) (lines : List Nat) : List Location :=
  if lines.isEmpty then [⟨path, none⟩] else lines.map fun line => ⟨path, some line⟩

theorem ofLines_of_ne_nil (path : String) {lines : List Nat} (h : lines ≠ []) :
    ofLines path lines = lines.map fun line => ⟨path, some line⟩ :=
  if_neg (by simpa using h)

/-- A text whose end is made of lines is read as one location for each of them, and as no location
if nothing stands in front of them. -/
theorem parseTrimmed?_append {path : List Char} {parts : List (List Char)} {lines : List Nat}
    (hname : EndsInName path) (hlines : List.Forall₂ IsLine parts lines) :
    parseTrimmed? (path ++ parts.flatMap (':' :: ·)) =
      if path = [] then none else some (ofLines (String.ofList path) lines) := by
  have hsplit : Text.splitOn ':' (path ++ parts.flatMap (':' :: ·)) =
      Text.splitOn ':' path ++ parts := by
    have hcolon := hlines.imp fun part n (hline : IsLine part n) =>
      And.intro hline.colon_not_mem hline
    exact Text.splitOn_append_flatMap path ((List.forall₂_and_left _ _).1 hcolon).1
  have htake : takeLines [] (Text.splitOn ':' (path ++ parts.flatMap (':' :: ·))).reverse =
      ((Text.splitOn ':' path).reverse, lines) := by
    rw [hsplit, List.reverse_append, takeLines_append (List.rel_reverse hlines) []
        (by simpa using Text.splitOn_ne_nil ':' path),
      List.reverse_reverse, List.append_nil, takeLines_path hname]
  rw [parseTrimmed?, htake]
  dsimp only
  rw [List.reverse_reverse, Text.joinWith_splitOn]
  by_cases hpath : path = []
  · simp [hpath]
  · have hempty : path ++ parts.flatMap (':' :: ·) ≠ [] :=
      List.append_ne_nil_of_left_ne_nil hpath _
    rw [if_neg (by simpa using hempty), if_neg (by simpa using hpath), if_neg hpath, ofLines]
    split_ifs <;> rfl

/-- A path with lines after it, as it is written. -/
def written (path : List Char) (lines : List Nat) : List Char :=
  path ++ (lines.map (Nat.toDigits 10)).flatMap (':' :: ·)

/-- What is written behind a path, as characters. -/
theorem toList_join (parts : List String) : (String.join (parts.map (":" ++ ·))).toList =
    (parts.map String.toList).flatMap (':' :: ·) := by
  rw [String.toList_join, List.flatMap_map, List.flatMap_map]
  refine congrArg List.flatten (List.map_congr_left fun part _ => ?_)
  rw [String.toList_append]
  rfl

theorem toList_written (path : String) (lines : List Nat) :
    (path ++ String.join (lines.map fun line => ":" ++ toString line)).toList =
      written path.toList lines := by
  have hparts := toList_join (lines.map toString)
  rw [List.map_map, List.map_map] at hparts
  rw [String.toList_append, written]
  refine congrArg (path.toList ++ ·) (hparts.trans ?_)
  refine congrArg (List.flatMap _) (List.map_congr_left fun line _ => ?_)
  rw [Function.comp_apply, Nat.toString_eq_ofList_toDigits, String.toList_ofList]

theorem head?_written {path : List Char} {lines : List Nat} (h : path ≠ []) :
    (written path lines).head? = path.head? := by
  obtain ⟨c, rest, rfl⟩ := List.exists_cons_of_ne_nil h
  rfl

/-- A written path with lines ends with a digit. -/
theorem isDigit_getLast?_written {path : List Char} {lines : List Nat} (hlines : lines ≠ [])
    {c : Char} (h : (written path lines).getLast? = some c) : c.isDigit = true := by
  rw [← List.dropLast_append_getLast hlines] at h
  have hend : (written path (lines.dropLast ++ [lines.getLast hlines])).getLast? =
      (Nat.toDigits 10 (lines.getLast hlines)).getLast? := by
    rw [written, List.map_append, List.flatMap_append, ← List.append_assoc, List.map_singleton,
      List.flatMap_singleton, List.getLast?_append,
      List.getLast?_cons_of_ne_nil Nat.toDigits_ne_nil]
    cases hlast : (Nat.toDigits 10 (lines.getLast hlines)).getLast? with
    | none => exact absurd (List.getLast?_eq_none_iff.1 hlast) Nat.toDigits_ne_nil
    | some d => rfl
  rw [hend] at h
  exact Nat.isDigit_of_mem_toDigits (by decide) (by decide) (List.mem_of_getLast? h)

theorem trimChars_written {path : List Char} {lines : List Nat} (hpath : path ≠ [])
    (hstart : ∀ c, path.head? = some c → Text.isBlank c = false) (hlines : lines ≠ []) :
    Text.trimChars (written path lines) = written path lines :=
  Text.trimChars_eq_self (fun c hc => hstart c (by rwa [head?_written hpath] at hc)) fun c hc =>
    Text.isBlank_of_isDigit (isDigit_getLast?_written hlines hc)

theorem forall₂_isLine_toDigits {lines : List Nat} (h : ∀ n ∈ lines, n ≤ 4294967295) :
    List.Forall₂ IsLine (lines.map (Nat.toDigits 10)) lines :=
  List.forall₂_map_left_iff.2 (List.forall₂_same.2 fun n hn => isLine_toDigits (h n hn))

/-- A written path with lines is read as one location for each of them. -/
theorem parseTrimmed?_written {path : List Char} {lines : List Nat} (hpath : path ≠ [])
    (hname : EndsInName path) (hlines : lines ≠ []) (hle : ∀ n ∈ lines, n ≤ 4294967295) :
    parseTrimmed? (written path lines) =
      some (lines.map fun line => ⟨String.ofList path, some line⟩) := by
  rw [written, parseTrimmed?_append hname (forall₂_isLine_toDigits hle), if_neg hpath,
    ofLines_of_ne_nil _ hlines]

end Location

end Rehearsal
