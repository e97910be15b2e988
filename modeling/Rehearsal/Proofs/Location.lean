import Rehearsal.Proofs.Rerun.Text

/-!
# Reading written locations

Lines are taken off the end of a text and what is left of it is the path, so a path may hold colons
as long as no line stands behind the last of them (`Location.IsPath`). Every text can be taken apart
like this (`Location.exists_path`), and `Location.parseTrimmed?_append` says what is read of a text
that is put together like this. The two meet in `Location.Reading`, which tells a text and its
locations by their parts.

Main statement: what is written for a path with lines is read as the locations that were written,
and a text is read as some locations exactly if they are a `Reading` of it
(`Location.locations_read_back`). A line may have a plus sign and zeros in front, so several texts
are read as the same locations.
-/

namespace Rehearsal

namespace Text

theorem joinWith_append_singleton (sep : Char) {parts : List (List Char)} (h : parts ≠ [])
    (last : List Char) :
    joinWith sep (parts ++ [last]) = joinWith sep parts ++ sep :: last := by
  induction parts with
  | nil => exact absurd rfl h
  | cons part rest ih =>
    cases rest with
    | nil => rfl
    | cons next more =>
      have hrest : next :: more ≠ [] := List.cons_ne_nil next more
      rw [List.cons_append, joinWith_cons _ _ _ (List.append_ne_nil_of_left_ne_nil hrest _),
        ih hrest, joinWith_cons _ _ _ hrest, List.append_assoc, List.cons_append]

end Text

namespace Location

/-! ### Taking lines off the end -/

theorem exists_isLine {path : List Char} (h : ¬ EndsInName path) :
    ∃ front part n, path = front ++ ':' :: part ∧ IsLine part n := by
  simp only [EndsInName, not_forall] at h
  obtain ⟨parts, last, hsplit, hparts, hread⟩ := h
  obtain ⟨n, hn⟩ := Option.ne_none_iff_exists'.1 hread
  refine ⟨Text.joinWith ':' parts, last, n, ?_, readLine?_eq_some_iff.1 hn⟩
  rw [← Text.joinWith_append_singleton ':' hparts, ← hsplit, Text.joinWith_splitOn]

theorem EndsInName.not_isLine {front part : List Char} {n : Nat}
    (h : EndsInName (front ++ ':' :: part)) : ¬ IsLine part n := fun hline => by
  have hsplit : Text.splitOn ':' (front ++ ':' :: part) = Text.splitOn ':' front ++ [part] := by
    rw [Text.splitOn_append, Text.splitOn_of_not_mem hline.colon_not_mem]
  have hnone := h _ _ hsplit (Text.splitOn_ne_nil ':' front)
  rw [readLine?_eq_some_iff.2 hline] at hnone
  cases hnone

/-- Every text is a path with lines behind it. The induction goes from the end of the text, from
which one line after the other is taken. -/
theorem exists_path (cs : List Char) : ∃ path parts lines, EndsInName path ∧
    List.Forall₂ IsLine parts lines ∧ cs = path ++ parts.flatMap (':' :: ·) := by
  by_cases hname : EndsInName cs
  · exact ⟨cs, [], [], hname, .nil, (List.append_nil cs).symm⟩
  · obtain ⟨front, part, n, hcs, hline⟩ := exists_isLine hname
    have hshorter : front.length < cs.length := by simp [hcs]
    obtain ⟨path, parts, lines, hpath, hlines, hfront⟩ := exists_path front
    refine ⟨path, parts ++ [part], lines ++ [n], hpath,
      List.rel_append hlines (.cons hline .nil), ?_⟩
    rw [hcs, hfront, List.flatMap_append, List.flatMap_singleton, List.append_assoc]
termination_by cs.length

theorem parseTrimmed?_eq_some_iff {cs : List Char} {ls : List Location} :
    parseTrimmed? cs = some ls ↔ ∃ path parts lines, path ≠ [] ∧ EndsInName path ∧
      List.Forall₂ IsLine parts lines ∧ cs = path ++ parts.flatMap (':' :: ·) ∧
      ls = ofLines (String.ofList path) lines := by
  constructor
  · intro h
    obtain ⟨path, parts, lines, hname, hlines, rfl⟩ := exists_path cs
    rw [parseTrimmed?_append hname hlines] at h
    split_ifs at h with hpath
    exact ⟨path, parts, lines, hpath, hname, hlines, rfl, (Option.some.inj h).symm⟩
  · rintro ⟨path, parts, lines, hpath, hname, hlines, rfl, rfl⟩
    rw [parseTrimmed?_append hname hlines, if_neg hpath]

/-! ### The parts of a text and its locations -/

/-- A line stands behind the last colon of the path. -/
def EndsInLine (path : String) : Prop :=
  ∃ front part n, path = front ++ ":" ++ part ∧ IsLine part.toList n

theorem endsInName_iff {path : String} : EndsInName path.toList ↔ ¬ EndsInLine path := by
  constructor
  · rintro hname ⟨front, part, n, rfl, hline⟩
    rw [String.toList_append, String.toList_append, List.append_assoc] at hname
    exact hname.not_isLine hline
  · intro h
    by_contra hname
    obtain ⟨front, part, n, hpath, hline⟩ := exists_isLine hname
    refine h ⟨String.ofList front, String.ofList part, n, ?_, by rwa [String.toList_ofList]⟩
    rw [← String.toList_inj, hpath]
    simp

/-- The locations are read off the text: it is their path with a part for the line of each of them
behind it, and no more lines could be taken off the path. -/
structure Reading (text path : String) (parts : List String) (ls : List Location) : Prop where
  nonempty : ls ≠ []
  path_ne : path ≠ ""
  path_eq : ∀ l ∈ ls, l.path = path
  lines : parts = [] ∧ ls = [⟨path, none⟩] ∨
    List.Forall₂ (fun part l => ∃ n, l.line = some n ∧ IsLine part.toList n) parts ls
  text_eq : text = path ++ String.join (parts.map (":" ++ ·))
  name : ¬ EndsInLine path

/-- Locations of a path that have lines are those of the path with their lines. -/
theorem exists_lines {path : String} {parts : List String} {ls : List Location}
    (h : List.Forall₂ (fun part l => ∃ n, l.line = some n ∧ IsLine part.toList n) parts ls)
    (hpath : ∀ l ∈ ls, l.path = path) : ∃ lines : List Nat,
      List.Forall₂ (fun part n => IsLine part.toList n) parts lines ∧
        ls = lines.map fun n => ⟨path, some n⟩ := by
  induction h with
  | nil => exact ⟨[], .nil, rfl⟩
  | @cons part l parts ls hline hlines ih =>
    rw [List.forall_mem_cons] at hpath
    obtain ⟨n, hn, hpart⟩ := hline
    obtain ⟨lines, hparts, hls⟩ := ih hpath.2
    refine ⟨n :: lines, .cons hpart hparts, ?_⟩
    rw [hls, List.map_cons, ← hn, ← hpath.1]

theorem reading_ofLines {path : String} {parts : List String} {lines : List Nat}
    (hpath : path ≠ "") (hname : ¬ EndsInLine path)
    (hlines : List.Forall₂ (fun part n => IsLine part.toList n) parts lines) :
    Reading (path ++ String.join (parts.map (":" ++ ·))) path parts (ofLines path lines) := by
  by_cases hne : lines = []
  · subst hne
    obtain rfl := List.forall₂_nil_right_iff.1 hlines
    exact ⟨by simp [ofLines], hpath, by simp [ofLines], .inl ⟨rfl, rfl⟩, rfl, hname⟩
  · rw [ofLines_of_ne_nil path hne]
    refine ⟨by simpa using hne, hpath, by simp, .inr ?_, rfl, hname⟩
    exact List.forall₂_map_right_iff.2 (hlines.imp fun part n hline => ⟨n, rfl, hline⟩)

/-- The locations of a reading are those of its path with lines. -/
theorem Reading.exists_ofLines {text path : String} {parts : List String} {ls : List Location}
    (h : Reading text path parts ls) : ∃ lines : List Nat,
      List.Forall₂ (fun part n => IsLine part.toList n) parts lines ∧ ls = ofLines path lines := by
  rcases h.lines with ⟨rfl, rfl⟩ | hlines
  · exact ⟨[], .nil, rfl⟩
  · obtain ⟨lines, hparts, rfl⟩ := exists_lines hlines h.path_eq
    have hne : lines ≠ [] := fun hnil => h.nonempty (by rw [hnil, List.map_nil])
    exact ⟨lines, hparts, (ofLines_of_ne_nil path hne).symm⟩

/-- A text is read as locations exactly if they are a reading of it. -/
theorem parseTrimmed?_toList_iff {text : String} {ls : List Location} :
    parseTrimmed? text.toList = some ls ↔ ∃ path parts, Reading text path parts ls := by
  rw [parseTrimmed?_eq_some_iff]
  constructor
  · rintro ⟨path, parts, lines, hpath, hname, hlines, htext, rfl⟩
    refine ⟨String.ofList path, parts.map String.ofList, ?_⟩
    have hparts : List.Forall₂ (fun part n => IsLine part.toList n) (parts.map String.ofList)
        lines := List.forall₂_map_left_iff.2 (by simpa using hlines)
    have hname' : ¬ EndsInLine (String.ofList path) :=
      endsInName_iff.1 (by rwa [String.toList_ofList])
    have hreading := reading_ofLines (by simpa using hpath) hname' hparts
    have heq : text = String.ofList path ++
        String.join ((parts.map String.ofList).map (":" ++ ·)) := by
      rw [← String.toList_inj, htext, String.toList_append, toList_join, String.toList_ofList,
        List.map_map]
      simp
    rwa [← heq] at hreading
  · rintro ⟨path, parts, h⟩
    obtain ⟨lines, hparts, hls⟩ := h.exists_ofLines
    refine ⟨path.toList, parts.map String.toList, lines, by simpa using h.path_ne,
      endsInName_iff.2 h.name, List.forall₂_map_left_iff.2 hparts, ?_, ?_⟩
    · rw [h.text_eq, String.toList_append, toList_join]
    · rw [hls, String.ofList_toList]

theorem parseAll_eq_ok_iff {text : String} {ls : List Location} :
    parseAll text = .ok ls ↔ ∃ path parts, Reading (Text.trim text) path parts ls := by
  rw [← parseTrimmed?_toList_iff, Text.toList_trim, parseAll]
  cases parseTrimmed? (Text.trimChars text.toList) <;> simp

/-! ### Paths with lines -/

/-- The path can be told from the lines that are written behind it. -/
structure IsPath (path : String) : Prop where
  nonempty : path ≠ ""
  start : ∀ c, path.toList.head? = some c → Text.isBlank c = false
  stop : ∀ c, path.toList.getLast? = some c → Text.isBlank c = false
  name : ¬ EndsInLine path

theorem IsPath.trimChars_written {path : String} (h : IsPath path) (lines : List Nat) :
    Text.trimChars (written path.toList lines) = written path.toList lines := by
  cases lines with
  | nil =>
    have hwritten : written path.toList [] = path.toList := List.append_nil _
    rw [hwritten, Text.trimChars_eq_self h.start h.stop]
  | cons n lines =>
    exact Location.trimChars_written (by simpa using h.nonempty) h.start (List.cons_ne_nil n lines)

theorem IsPath.parseAll_written {path : String} (h : IsPath path) {lines : List Nat}
    (hle : ∀ n ∈ lines, n ≤ 4294967295) :
    parseAll (path ++ String.join (lines.map fun n => ":" ++ toString n)) =
      .ok (ofLines path lines) := by
  rw [parseAll, toList_written, h.trimChars_written, written,
    parseTrimmed?_append (endsInName_iff.2 h.name) (forall₂_isLine_toDigits hle),
    if_neg (by simpa using h.nonempty), String.ofList_toList]

theorem render_eq (l : Location) :
    l.render = l.path ++ String.join (l.line.toList.map fun n => ":" ++ toString n) := by
  obtain ⟨path, line⟩ := l
  cases line with
  | none => exact (String.append_empty).symm
  | some n => simp [render, String.join, String.append_assoc]

theorem ofLines_toList (l : Location) : ofLines l.path l.line.toList = [l] := by
  obtain ⟨path, line⟩ := l
  cases line <;> rfl

/-- A path with lines behind it is read as one location for each line, and a location that is
written down is read back. A text is read as locations exactly if they are a reading of what is left
when the blanks around it are dropped. -/
theorem locations_read_back :
    (∀ path, IsPath path → ∀ lines : List Nat, (∀ n ∈ lines, n ≤ 4294967295) →
      parseAll (path ++ String.join (lines.map fun n => ":" ++ toString n)) =
        .ok (ofLines path lines)) ∧
    (∀ l : Location, IsPath l.path → (∀ n ∈ l.line, n ≤ 4294967295) → parse l.render = .ok l) ∧
    ∀ text ls, parseAll text = .ok ls ↔
      ∃ path parts, Reading (Text.trim text) path parts ls := by
  refine ⟨fun path hpath lines hle => hpath.parseAll_written hle, fun l hpath hle => ?_,
    fun text ls => parseAll_eq_ok_iff⟩
  have hsmall : ∀ n ∈ l.line.toList, n ≤ 4294967295 := fun n hn => hle n (Option.mem_toList.1 hn)
  rw [parse, render_eq, hpath.parseAll_written hsmall, ofLines_toList]

/-- An empty part is no line, and what stands in front of all colons never is one. -/
example : parseAll "4::7:0" = .ok [⟨"4:", some 7⟩, ⟨"4:", some 0⟩] ∧
    parseAll "4" = .ok [⟨"4", none⟩] := by decide

theorem isPath_drive : IsPath "C:/a.feature" where
  nonempty := by decide
  start c hc := by
    obtain rfl : 'C' = c := Option.some.inj hc
    rfl
  stop c hc := by
    obtain rfl : 'e' = c := Option.some.inj hc
    rfl
  name := endsInName_iff.1 (endsInName_of_getLast? rfl rfl)

/-- The colon behind the letter of a drive belongs to the path. -/
theorem locations_read_back_drive : IsPath "C:/a.feature" ∧
    parseAll "C:/a.feature:3:12" =
      .ok [⟨"C:/a.feature", some 3⟩, ⟨"C:/a.feature", some 12⟩] ∧
    parse "C:/a.feature:3" = .ok ⟨"C:/a.feature", some 3⟩ ∧
    ∃ path parts, Reading (Text.trim " C:/a.feature:+03 ") path parts
      [⟨"C:/a.feature", some 3⟩] := by
  obtain ⟨hwritten, hrender, hread⟩ := locations_read_back
  refine ⟨isPath_drive, ?_, ?_, (hread _ _).1 (by decide)⟩
  · exact hwritten "C:/a.feature" isPath_drive [3, 12] (by decide)
  · exact hrender ⟨"C:/a.feature", some 3⟩ isPath_drive (by decide)

end Location

end Rehearsal
