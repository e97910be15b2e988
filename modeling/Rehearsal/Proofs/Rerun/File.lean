import Rehearsal.Proofs.Grouping
import Rehearsal.Proofs.Rerun.Text
import Rehearsal.Report.Rerun

/-!
# Rerun files read back

A rerun file groups lines by paths, and reading it gives one location for each line of each
group (`Rerun.parse_written`), if the paths are `Rerun.Readable`: what is written of them must
not be taken for a comment, for several lines of the file, or for lines of a document.
-/

namespace Rehearsal

namespace Location

variable {path : List Char} {lines : List Nat}

theorem newline_not_mem_written (h : '\n' ∉ path) : '\n' ∉ written path lines := by
  intro hmem
  rcases List.mem_append.1 hmem with hmem | hmem
  · exact h hmem
  · obtain ⟨part, hpart, hmem⟩ := List.mem_flatMap.1 hmem
    obtain ⟨n, -, rfl⟩ := List.mem_map.1 hpart
    rcases List.mem_cons.1 hmem with heq | hmem
    · exact absurd heq (by decide)
    · exact absurd (Nat.isDigit_of_mem_toDigits (by decide) (by decide) hmem) (by decide)

end Location

namespace Rerun

/-- What is written of the path in a rerun file is taken for the path. -/
structure Readable (path : String) : Prop where
  nonempty : path.toList ≠ []
  oneLine : '\n' ∉ path.toList
  start : ∀ c, path.toList.head? = some c → Text.isBlank c = false ∧ c ≠ '#'
  name : Location.EndsInName path.toList

/-- What stands before the number in the comment at the beginning of a rerun file. -/
def headerStart : List Char := "# -- RERUN: ".toList

/-- What stands after the number. -/
def headerEnd : List Char := " failing scenarios during last test run.".toList

/-- The comment at the beginning of a rerun file for `n` scenarios. -/
def header (n : Nat) : List Char := headerStart ++ Nat.toDigits 10 n ++ headerEnd

/-- A path with lines as `Location.written` takes them. -/
def writtenGroup (g : String × List Nat) : List Char := Location.written g.1.toList g.2

def locationsOf (g : String × List Nat) : List Location := g.2.map fun line => ⟨g.1, some line⟩

/-- The group may be written into a rerun file. -/
structure Fits (g : String × List Nat) : Prop where
  path : Readable g.1
  lines : g.2 ≠ []
  small : ∀ line ∈ g.2, line ≤ 4294967295

theorem toList_documentLine (g : String × List Nat) :
    (documentLine g).toList = writtenGroup g ++ ['\n'] := by
  rw [documentLine, String.toList_append, Location.toList_written]
  rfl

/-- The lines of a rerun file, each with its end. -/
theorem toList_file (n : Nat) (groups : List (String × List Nat)) :
    ("# -- RERUN: " ++ toString n ++ " failing scenarios during last test run.\n" ++
        String.join (groups.map documentLine)).toList =
      (header n :: groups.map writtenGroup).flatMap (· ++ ['\n']) := by
  have hgroups : (groups.map documentLine).flatMap String.toList =
      (groups.map writtenGroup).flatMap (· ++ ['\n']) := by
    rw [List.flatMap_map, List.flatMap_map]
    exact congrArg List.flatten (List.map_congr_left fun g _ => toList_documentLine g)
  have hstart : "# -- RERUN: ".toList = headerStart := rfl
  have hback : " failing scenarios during last test run.\n".toList = headerEnd ++ ['\n'] := by
    decide +kernel
  rw [String.toList_append, String.toList_append, String.toList_append, String.toList_join,
    hgroups, hstart, hback, Nat.toString_eq_ofList_toDigits, String.toList_ofList,
    List.flatMap_cons, header]
  simp only [List.append_assoc]

theorem newline_not_mem_header (n : Nat) : '\n' ∉ header n := by
  intro h
  rcases List.mem_append.1 h with h | h
  · rcases List.mem_append.1 h with h | h
    · exact absurd h (by decide +kernel)
    · exact absurd (Nat.isDigit_of_mem_toDigits (by decide) (by decide) h) (by decide)
  · exact absurd h (by decide +kernel)

theorem getLast?_header (n : Nat) : (header n).getLast? = some '.' := by
  have hlast : headerEnd.getLast? = some '.' := by decide +kernel
  rw [header, List.getLast?_append, hlast]
  rfl

theorem head?_header (n : Nat) : (header n).head? = some '#' := by
  have hfirst : headerStart.head? = some '#' := by decide +kernel
  rw [header, List.head?_append, List.head?_append, hfirst]
  rfl

theorem Fits.getLast? {g : String × List Nat} (h : Fits g) {c : Char}
    (hc : (writtenGroup g).getLast? = some c) : c.isDigit = true :=
  Location.isDigit_getLast?_written h.lines hc

theorem Fits.trim {g : String × List Nat} (h : Fits g) :
    Text.trimChars (writtenGroup g) = writtenGroup g :=
  Location.trimChars_written h.path.nonempty (fun c hc => (h.path.start c hc).1) h.lines

theorem trim_header (n : Nat) : Text.trimChars (header n) = header n := by
  refine Text.trimChars_eq_self (fun c hc => ?_) fun c hc => ?_
  · rw [head?_header, Option.some.injEq] at hc
    rw [← hc]
    rfl
  · rw [getLast?_header, Option.some.injEq] at hc
    rw [← hc]
    rfl

/-- The trimmed lines of a rerun file. -/
theorem lines_file (n : Nat) {groups : List (String × List Nat)} (h : ∀ g ∈ groups, Fits g) :
    (Text.lines ("# -- RERUN: " ++ toString n ++ " failing scenarios during last test run.\n" ++
        String.join (groups.map documentLine))).map Text.trim =
      (header n :: groups.map writtenGroup).map String.ofList := by
  rw [Text.lines, toList_file, Text.linesOfParts_written, List.map_map]
  · refine List.map_congr_left fun l hl => ?_
    rw [Function.comp_apply, Text.trim, String.toList_ofList]
    rcases List.mem_cons.1 hl with rfl | hl
    · rw [trim_header]
    · obtain ⟨g, hg, rfl⟩ := List.mem_map.1 hl
      rw [(h g hg).trim]
  · intro l hl
    rcases List.mem_cons.1 hl with rfl | hl
    · exact ⟨newline_not_mem_header n, by rw [getLast?_header]; decide⟩
    · obtain ⟨g, hg, rfl⟩ := List.mem_map.1 hl
      refine ⟨Location.newline_not_mem_written (h g hg).path.oneLine, fun hreturn => ?_⟩
      exact absurd ((h g hg).getLast? hreturn) (by decide)

theorem parseAll_writtenGroup {g : String × List Nat} (h : Fits g) :
    Location.parseAll (String.ofList (writtenGroup g)) = .ok (locationsOf g) := by
  rw [Location.parseAll, String.toList_ofList, h.trim, writtenGroup,
    Location.parseTrimmed?_written h.path.nonempty h.path.name h.lines h.small]
  simp [locationsOf]

theorem isComment_writtenGroup {g : String × List Nat} (h : Fits g) :
    isComment (String.ofList (writtenGroup g)) = false := by
  have hhead : (writtenGroup g).head? = g.1.toList.head? :=
    Location.head?_written h.path.nonempty
  rw [isComment, String.toList_ofList]
  cases hchars : g.1.toList with
  | nil => exact absurd hchars h.path.nonempty
  | cons c rest =>
    rw [hchars] at hhead
    obtain ⟨rest', heq⟩ := List.head?_eq_some_iff.1 hhead
    have hne := (h.path.start c (by rw [hchars]; rfl)).2
    rw [heq]
    simpa using hne

theorem parseLines_writtenGroups {groups : List (String × List Nat)} (h : ∀ g ∈ groups, Fits g) :
    parseLines ((groups.map writtenGroup).map String.ofList) =
      .ok (groups.flatMap locationsOf) := by
  induction groups with
  | nil => rfl
  | cons g rest ih =>
    rw [List.forall_mem_cons] at h
    rw [List.map_cons, List.map_cons, parseLines, isComment_writtenGroup h.1,
      if_neg Bool.false_ne_true, parseAll_writtenGroup h.1, ih h.2]
    rfl

/-- A rerun file is read as one location for each line of each of its groups. -/
theorem parse_written (n : Nat) {groups : List (String × List Nat)} (h : ∀ g ∈ groups, Fits g) :
    parse ("# -- RERUN: " ++ toString n ++ " failing scenarios during last test run.\n" ++
      String.join (groups.map documentLine)) = .ok (groups.flatMap locationsOf) := by
  have hcomment : isComment (String.ofList (header n)) = true := by
    obtain ⟨rest, heq⟩ := List.head?_eq_some_iff.1 (head?_header n)
    rw [isComment, String.toList_ofList, heq]
    rfl
  rw [parse, lines_file n h, List.map_cons, parseLines, hcomment, if_pos rfl,
    parseLines_writtenGroups h]

end Rerun

end Rehearsal
