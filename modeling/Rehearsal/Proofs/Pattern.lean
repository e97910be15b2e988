import Rehearsal.Proofs.Pattern.Scanning
import Rehearsal.Proofs.Pattern.Size

/-!
# Patterns match exactly what they say

A pattern with placeholders of built-in types matches a text exactly when the text is what the
pattern says, and the arguments lie in it as the pattern says
(`StepPattern.placeholders_match_exactly`).
-/

namespace Rehearsal

namespace StepPattern

open Regex PatternPiece

variable {types : ParameterTypes} {source : String} {p : StepPattern} {pieces : List PatternPiece}

/-- Text without braces, unless it is meant as a regular expression, is a pattern that matches
itself alone; no arguments are taken from it. -/
theorem exists_of_plain (hok : (compile types source).isOk = true)
    (hcaret : source.toList.head? ≠ some '^') (hbraces : ∀ c ∈ source.toList, isBrace c = false) :
    ∃ p, compile types source = .ok p ∧ p.source = source ∧
      (∀ text, p.accepts text = true ↔ text = source) ∧ p.extract? source = some (.ok []) := by
  have hcompile := @compile_of_not_caret types source hcaret
  cases h : ofPlaceholders types source with
  | error e => simp [hcompile, h, Except.isOk, Except.toBool] at hok
  | ok p =>
    obtain ⟨pieces, hpieces, hanchored, hparameters⟩ := exists_of_ofPlaceholders h
    obtain rfl := (writes_all hpieces).unique (writes_plain types hbraces)
    have haccepts : ∀ text, p.accepts text = true ↔ text = source := fun text => by
      rw [accepts_iff_covers (by simp [AllBuiltIn]) hanchored, ← String.toList_inj]
      simp [covers_literals_iff]
    have hsome := (haccepts source).2 rfl
    rw [accepts_eq_isSome_extract?] at hsome
    obtain ⟨outcome, hextract⟩ := Option.isSome_iff_exists.1 hsome
    obtain ⟨walk, -, rfl⟩ := Option.map_eq_some_iff.1 hextract
    rw [hparameters, placeholderParameters_literals] at hextract
    exact ⟨p, hcompile.trans h, source_of_ofPlaceholders h, haccepts, hextract⟩

/-- A pattern with placeholders of built-in types matches a text exactly when the text is what the
pattern says: its literals with allowed texts for the placeholders. It then gives one argument for
each placeholder, cut out of the text where the placeholder stands. -/
theorem placeholders_match_exactly (h : ofPlaceholders types source = .ok p) :
    ∃ pieces, (∀ ps, Writes types source.toList ps ↔ ps = pieces) ∧
      (AllBuiltIn pieces → ∀ text : String,
        (p.accepts text = true ↔ ∃ raws, Covers pieces raws text.toList) ∧
        ((p.extract? text).isSome = true ↔ p.accepts text = true) ∧
        (∀ args, p.extract? text = some (.ok args) →
          Lays pieces 0 args text.toList ∧
            Covers pieces (args.map fun a => a.raw.toList) text.toList ∧
            ∀ a ∈ args, a.IsPartOf text.toList) ∧
        ∀ cs, pieces = cs.map .literal → (p.accepts text = true ↔ text.toList = cs)) := by
  obtain ⟨pieces, hpieces, hanchored, hparameters⟩ := exists_of_ofPlaceholders h
  have hwrites := writes_all hpieces
  refine ⟨pieces, fun ps => ⟨fun hps => hps.unique hwrites, fun heq => heq ▸ hwrites⟩,
    fun hbuiltIn text => ?_⟩
  obtain ⟨hnames, htraces⟩ := traces_of_anchored_iff hbuiltIn hanchored
  have haccepts := accepts_iff_covers hbuiltIn hanchored text
  refine ⟨haccepts, by rw [accepts_eq_isSome_extract?], fun args hargs => ?_, ?_⟩
  · obtain ⟨⟨i, walk⟩, hsearch, hextract⟩ := Option.map_eq_some_iff.1 hargs
    obtain ⟨hi, hwalk⟩ := search_eq_some hsearch
    obtain ⟨rfl, -, raws, hcovers, hmarks⟩ := (htraces _ i _ _ hi).1 hwalk
    rw [hparameters] at hextract
    have hlays := lays_of_argumentsOf (n := 0) (i := 0)
      (fun k hk => by rw [hnames]; exact groupNumber?_groupNames (by simpa using hk))
      (fun m _ => by rw [← hmarks, List.mem_reverse]) hcovers rfl hextract
    exact ⟨hlays, hlays.covers, fun a ha => hlays.isPartOf [] rfl ha⟩
  · rintro cs rfl
    simp [haccepts, covers_literals_iff]

/-- Neither braces that are doubled nor signs of regular expressions mean anything but themselves.
Offsets count bytes. -/
theorem placeholders_match_exactly_braces : ∃ p,
    ofPlaceholders .builtIn "(é) \x7bn:word\x7d* \x7b\x7b\x7b\x7d\x7d\x7d" = .ok p ∧
      (∀ text, p.accepts text = true ↔ ∃ v w : List Char,
        text.toList = "(é) ".toList ++ v ++ "* \x7b".toList ++ w ++ "\x7d".toList ∧
          (v ≠ [] ∧ ∀ c ∈ v, Text.isBlank c = false) ∧ w ≠ [] ∧ ∀ c ∈ w, c ≠ '\n') ∧
      ∃ args, p.extract? "(é) ab* \x7bc d\x7d" = some (.ok args) ∧
        args.map (fun a => (a.name, a.raw, a.start, a.stop)) =
          [(some "n", "ab", 5, 7), (none, "c d", 10, 13)] := by
  let ps : List PatternPiece := "(é) ".toList.map .literal ++
    .placeholder (some "n") (some (.word "word")) :: "* \x7b".toList.map .literal ++
      [.placeholder none none, .literal '\x7d']
  have hwrites : Writes .builtIn "(é) \x7bn:word\x7d* \x7b\x7b\x7b\x7d\x7d\x7d".toList ps :=
    .plain rfl (.plain rfl (.plain rfl (.plain rfl
      (@Writes.placeholder _ "n:word".toList _ _ _ (by simp [PatternPiece.isBrace])
        (@WritesInner.typed _ ['n'] "word".toList _ (by decide) rfl)
        (.plain rfl (.plain rfl (.doubled rfl
          (@Writes.placeholder _ [] _ _ _ (by simp) (.untyped (by decide))
            (.doubled rfl .nil)))))))))
  have hbuiltIn : AllBuiltIn ps := by simp [AllBuiltIn, ps, ParameterType.builtIn]
  obtain ⟨p, h⟩ := exists_ofPlaceholders_of_totalWeight
    (all_eq_ok_iff.2 ⟨hwrites, by decide, by decide, by decide⟩) hbuiltIn (by decide)
  obtain ⟨pieces, hpieces, hmatch⟩ := placeholders_match_exactly h
  obtain rfl := (hpieces ps).1 hwrites
  have haccepts : ∀ text, p.accepts text = true ↔ ∃ v w : List Char,
      text.toList = "(é) ".toList ++ v ++ "* \x7b".toList ++ w ++ "\x7d".toList ∧
        (v ≠ [] ∧ ∀ c ∈ v, Text.isBlank c = false) ∧ w ≠ [] ∧ ∀ c ∈ w, c ≠ '\n' := fun text => by
    rw [(hmatch hbuiltIn text).1]
    simp [ps, covers_literal_iff, covers_placeholder_iff, covers_nil_iff,
      ParameterType.allows_word_iff, ParameterType.allows_none_iff]
  obtain ⟨_, hall, -, hparameters⟩ := exists_of_ofPlaceholders h
  obtain rfl := (hpieces _).1 (writes_all hall)
  obtain ⟨args, hargs⟩ := exists_extract?_of_accepts
    (by simp [hparameters, ps, placeholderParameters, ParameterType.word])
    ((haccepts "(é) ab* \x7bc d\x7d").2 ⟨"ab".toList, "c d".toList, by simp [Text.isBlank]⟩)
  refine ⟨p, h, haccepts, args, hargs, ?_⟩
  obtain ⟨hlays, -, -⟩ := (hmatch hbuiltIn _).2.2.1 args hargs
  simp only [ps, String.reduceToList, List.map_cons, List.map_nil, List.cons_append,
    List.nil_append, lays_literal_iff, lays_placeholder_iff, lays_nil_iff, List.cons.injEq,
    true_and, and_true, zero_add, exists_and_left, exists_eq_left', exists_eq_right_right,
    ↓existsAndEq] at hlays
  obtain ⟨a, b, htext, rfl, hname, hstart, hstop, -, hname', hstart', hstop', -⟩ := hlays
  -- the asterisk stands once in the text, so it ends the word
  obtain ⟨hword, -, hquoted⟩ := (List.append_cons_inj_of_notMem (by decide) (by decide)).1
    (show "ab".toList ++ '*' :: " \x7bc d\x7d".toList = _ from htext)
  have hraw : "ab" = a.raw := String.toList_inj.1 hword
  have hraw' : "c d" = b.raw := String.toList_inj.1
    (List.append_cancel_right (List.cons.inj (List.cons.inj hquoted).2).2)
  simp only [List.map_cons, List.map_nil, hname, hname', hstart', hstop', hstart, hstop, ← hraw,
    ← hraw']
  rfl

end StepPattern

end Rehearsal
