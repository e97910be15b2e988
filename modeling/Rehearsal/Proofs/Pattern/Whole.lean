import Rehearsal.Proofs.Pattern.Anchor
import Rehearsal.Proofs.Pattern.Captures

/-!
# Expressions match the whole text

A regular expression that is made a pattern is read in a group between anchors. It is read there as
it is on its own, and so are anchors of its own at its ends (`exists_reads_anchored`): they do not
count, as a text begins and ends where the pattern does. The pattern is refused only if the
expression with the anchors around it goes beyond a limit. Otherwise it matches the texts that the
expression covers from the first to the last character (`regex_matches_whole`).
-/

namespace Rehearsal

namespace Regex

variable {text : String} {form : Form} {c c' : Compiled}

/-- Whatever the limits, the text is read as the form and means the expression, with the names of
its groups. -/
def Reads (text : String) (form : Form) (c : Compiled) : Prop :=
  ∃ s g, Reader.read .start text.toList = some s ∧ s.opened = [] ∧ s.inner = form ∧
    form.meaning .default = some (c.root, g) ∧ s.names.reverse = c.names

theorem Reads.unique {form' : Form} (h : Reads text form c) (h' : Reads text form' c') :
    form = form' ∧ c = c' := by
  obtain ⟨s, g, hs, -, rfl, hmeaning, hnames⟩ := h
  obtain ⟨s', g', hs', -, rfl, hmeaning', hnames'⟩ := h'
  obtain rfl := Option.some.inj (hs.symm.trans hs')
  obtain ⟨hroot, -⟩ := Prod.mk.inj (Option.some.inj (hmeaning.symm.trans hmeaning'))
  obtain ⟨root, names⟩ := c
  obtain ⟨root', names'⟩ := c'
  exact ⟨rfl, congrArg₂ Compiled.mk hroot (hnames.symm.trans hnames')⟩

theorem parse?_eq_some_iff {cs : List Char} {names : List (Option String)} :
    Form.parse? cs = some (form, names) ↔ ∃ s, Reader.read .start cs = some s ∧ s.opened = [] ∧
      s.inner = form ∧ s.names.reverse = names ∧ form.depth none ≤ nestingLimit := by
  rw [Form.parse?]
  cases hread : Reader.read .start cs with
  | none => simp
  | some s =>
    simp only [Option.some.injEq, exists_eq_left']
    split_ifs with hlimit
    · simp only [Bool.and_eq_true, List.isEmpty_iff, decide_eq_true_eq] at hlimit
      simp only [Option.some.injEq, Prod.mk.injEq, hlimit.1, true_and]
      constructor
      · rintro ⟨rfl, rfl⟩
        exact ⟨rfl, rfl, hlimit.2⟩
      · rintro ⟨rfl, rfl, -⟩
        exact ⟨rfl, rfl⟩
    · simp only [Bool.and_eq_true, List.isEmpty_iff, decide_eq_true_eq] at hlimit
      simp only [false_iff]
      rintro ⟨hopened, rfl, -, hdepth⟩
      exact hlimit ⟨hopened, hdepth⟩

/-- An expression is accepted exactly if it keeps within the limits. -/
theorem compile?_eq_some_iff : compile? text = some c ↔
    ∃ form, Reads text form c ∧ form.depth none ≤ nestingLimit ∧ c.root.fits = true := by
  rw [compile?]
  constructor
  · intro h
    cases hparse : Form.parse? text.toList with
    | none => simp [hparse] at h
    | some parsed =>
      obtain ⟨form, names⟩ := parsed
      simp only [hparse] at h
      cases hmeaning : form.meaning .default with
      | none => simp [hmeaning] at h
      | some meant =>
        simp only [hmeaning] at h
        split_ifs at h with hfits
        cases h
        obtain ⟨s, hs, hopened, hinner, hnames, hdepth⟩ := parse?_eq_some_iff.1 hparse
        exact ⟨form, ⟨s, _, hs, hopened, hinner, hmeaning, hnames⟩, hdepth, hfits⟩
  · rintro ⟨form, ⟨s, g, hs, hopened, hinner, hmeaning, hnames⟩, hdepth, hfits⟩
    rw [parse?_eq_some_iff.2 ⟨s, hs, hopened, hinner, hnames, hdepth⟩]
    simp only [hmeaning, hfits, if_true]

namespace Reader

variable {cs tail : List Char} {s : State}

/-- A sign in front of an expression or behind it, or none. -/
def sign (x : Char) (on : Bool) : List Char := if on then [x] else []

/-- Behind other items inside other groups an expression is read as it is on its own. -/
theorem exists_leads_of_read (hs : read .start cs = some s) (hopened : s.opened = [])
    (hverbose : s.inner.turnsOn .verbose = false) (pre : List Form) (outer : List Opened)
    (htail : IsInert tail) :
    ∃ items branches, Leads pre s.items s.branches items branches ∧
      read ⟨false, pre, [], outer, []⟩ (cs ++ tail) =
        read ⟨false, items, branches, outer, s.names⟩ tail := by
  have hoff : s.turnsOn .verbose = false := by
    rw [State.turnsOn, hverbose, hopened]
    rfl
  have hstart : Frames pre outer .start ⟨false, pre, [], outer, []⟩ := .here (.first (by simp))
  obtain ⟨t, hframes, hv, hread⟩ := exists_frames_of_read hs ⟨rfl, by simp [State.start]⟩ hoff
    hstart htail
  cases hframes with
  | here h =>
    obtain rfl : _ = false := hv
    exact ⟨_, _, h, hread⟩
  | within opened h => exact absurd hopened (by simp)

/-- With anchors around it an expression means the same between the ends of a text, and its form is
deeper by three at most. -/
theorem exists_reads_anchored {r : String} (h : Reads r form c)
    (hverbose : form.turnsOn .verbose = false) (caret dollar : Bool) :
    ∃ form' R, Reads ("^(?:" ++ String.ofList (sign '^' caret ++ (r.toList ++ sign '$' dollar)) ++
        ")$") form' ⟨R.between, c.names⟩ ∧ form'.depth none ≤ form.depth none + 3 ∧
      ∀ text ms, Traces text R 0 text.size ms ↔ Traces text c.root 0 text.size ms := by
  obtain ⟨s, g, hs, hopened, rfl, hmeaning, hnames⟩ := h
  have htail : IsInert (sign '$' dollar ++ [')', '$']) := by cases dollar <;> simp [IsInert, sign]
  obtain ⟨items, branches, hleads, hread⟩ := exists_leads_of_read hs hopened hverbose
    (anchor .caret caret) [anchorGroup] htail
  have hcaret : ∀ rest, read ⟨false, [], [], [anchorGroup], []⟩ (sign '^' caret ++ rest) =
      read ⟨false, anchor .caret caret, [], [anchorGroup], []⟩ rest := by
    intro rest
    cases caret with
    | false => rfl
    | true => exact read_caret
  have hdollar : read ⟨false, items, branches, [anchorGroup], s.names⟩
      (sign '$' dollar ++ [')', '$']) =
        read ⟨false, anchor .dollar dollar ++ items, branches, [anchorGroup], s.names⟩
          [')', '$'] := by
    cases dollar with
    | false => rfl
    | true => exact read_dollar
  have hstate := read_anchored (w := sign '^' caret ++ (r.toList ++ sign '$' dollar)) (by
    rw [List.append_assoc, List.append_assoc, hcaret, hread, hdollar])
  obtain ⟨R', hR', htraces'⟩ := hleads.agreesWhere _ _ _ hmeaning
  obtain ⟨R, hR, htraces⟩ := agreesWhere_anchor_dollar dollar items branches _ _ _ hR'
  refine ⟨_, R, ⟨_, _, hstate, rfl, rfl, meaning_between hR, hnames⟩, ?_, fun text ms => ?_⟩
  · have hdepth := hleads.depth_le dollar none
    simp only [Form.depth, State.inner, Form.ofBranches, Form.ofReversed, List.foldl_cons,
      List.foldl_nil, reduceCtorEq, if_false, if_true] at hdepth ⊢
    omega
  · exact (htraces text 0 _ ms rfl).trans (htraces' text 0 _ ms rfl)

end Reader

end Regex

namespace StepPattern

open Regex

variable {source : String} {p : StepPattern}

theorem anchored_eq_ok_iff {body : String} {r : Compiled} :
    anchored source body = .ok r ↔ compile? ("^(?:" ++ body ++ ")$") = some r := by
  rw [anchored]
  split <;> simp_all

/-- What a pattern is made of. -/
theorem ofRegex_eq_ok_iff : ofRegex source = .ok p ↔
    ∃ r, anchored source source = .ok r ∧ ⟨source, .regex, r, groupParameters 1 r.names⟩ = p := by
  rw [ofRegex]
  cases anchored source source <;> simp

/-- A pattern matches what its expression covers from the start to the end of the text. -/
theorem accepts_iff_spans {R : Regex} (hroot : p.regex.root = R.between) (text : String) :
    p.accepts text = true ↔ Spans text.toList.toArray R 0 text.toList.length := by
  simp only [accepts, isFoundIn_iff, spans_iff_exists_traces, hroot]
  constructor
  · rintro ⟨i, j, hi, ms, hms⟩
    obtain ⟨-, -, hR⟩ := (traces_between_iff hi).1 hms
    exact ⟨ms, by simpa using hR⟩
  · rintro ⟨ms, hms⟩
    exact ⟨0, _, Nat.zero_le _, ms, (traces_between_iff (Nat.zero_le _)).2
      ⟨rfl, rfl, by simpa using hms⟩⟩

/-- An expression and the same expression with anchors of its own in front, behind, or both. -/
def withAnchors (r : String) : List String := [r, "^" ++ r, r ++ "$", "^" ++ r ++ "$"]

theorem exists_signs_of_mem {r s : String} (h : s ∈ withAnchors r) :
    ∃ caret dollar, s = String.ofList
      (Reader.sign '^' caret ++ (r.toList ++ Reader.sign '$' dollar)) := by
  simp only [withAnchors, List.mem_cons, List.not_mem_nil, or_false] at h
  rcases h with rfl | rfl | rfl | rfl
  · exact ⟨false, false, by simp [Reader.sign]⟩
  · exact ⟨true, false, by simp [Reader.sign]⟩
  · exact ⟨false, true, by simp [Reader.sign]⟩
  · exact ⟨true, true, by simp [Reader.sign, String.append_assoc]⟩

/-- What a pattern takes from a text, if its expression is one between the ends of the text. -/
theorem exists_of_extract? {R : Regex} (hroot : p.regex.root = R.between)
    (hparameters : p.parameters = groupParameters 1 p.regex.names) {text : String}
    {outcome : Except ConversionError (List Argument)} (h : p.extract? text = some outcome) :
    ∃ walk args, p.regex.root.search text.toList.toArray = some (0, walk) ∧
      R.Traces text.toList.toArray 0 text.toList.length walk.marks.reverse ∧ outcome = .ok args ∧
      Captures text.toList walk.marks.reverse 1 p.regex.names args := by
  obtain ⟨⟨i, walk⟩, hsearch, rfl⟩ := Option.map_eq_some_iff.1 h
  obtain ⟨hi, hwalk⟩ := search_eq_some hsearch
  rw [hroot] at hwalk
  obtain ⟨rfl, -, hR⟩ := (traces_between_iff hi).1 hwalk
  have hwhole : R.Traces text.toList.toArray 0 text.toList.length walk.marks.reverse := by
    simpa using hR
  obtain ⟨args, hargs, hcaptures⟩ := exists_captures hwhole.settled 1 0 p.regex.names
  rw [← hparameters] at hargs
  exact ⟨walk, args, hsearch, hwhole, hargs, hcaptures⟩

/-- Patterns made of an expression, with anchors of its own at its ends or without, match the whole
text. They are refused only if the expression between the anchors of the pattern, which are three
levels of nesting at most, goes beyond a limit. Each group that has taken part in the match gives
an argument. -/
theorem regex_matches_whole {r : String} {form : Form} {c : Compiled} (hr : compile? r = some c)
    (hform : Form.parse? r.toList = some (form, c.names))
    (hverbose : form.turnsOn .verbose = false) {s : String} (hs : s ∈ withAnchors r) :
    (∃ form' root, Reads ("^(?:" ++ s ++ ")$") form' ⟨root, c.names⟩ ∧
      form'.depth none ≤ form.depth none + 3 ∧
      ((∃ p, ofRegex s = .ok p) ↔ form'.depth none ≤ nestingLimit ∧ root.fits = true)) ∧
    ∀ p, ofRegex s = .ok p → ∀ text : String,
      (p.accepts text = true ↔ Spans text.toList.toArray c.root 0 text.toList.length) ∧
      ∀ outcome, p.extract? text = some outcome → ∃ walk args,
        p.regex.root.search text.toList.toArray = some (0, walk) ∧
        c.root.Traces text.toList.toArray 0 text.toList.length walk.marks.reverse ∧
        outcome = .ok args ∧ Captures text.toList walk.marks.reverse 1 c.names args ∧
        ∀ a ∈ args, a.IsPartOf text.toList := by
  obtain ⟨caret, dollar, rfl⟩ := exists_signs_of_mem hs
  have hreads : Reads r form c := by
    obtain ⟨form₀, hreads, hdepth, -⟩ := compile?_eq_some_iff.1 hr
    obtain ⟨s, g, hread, hopened, rfl, hmeaning, hnames⟩ := hreads
    obtain ⟨s', hread', -, rfl, -⟩ := parse?_eq_some_iff.1 hform
    obtain rfl := Option.some.inj (hread.symm.trans hread')
    exact ⟨s, g, hread, hopened, rfl, hmeaning, hnames⟩
  obtain ⟨form', R, hreads', hdepth, htraces⟩ :=
    Reader.exists_reads_anchored hreads hverbose caret dollar
  refine ⟨⟨form', R.between, hreads', hdepth, ?_⟩, fun p hp text => ?_⟩
  · constructor
    · rintro ⟨p, hp⟩
      obtain ⟨c', hc', -⟩ := ofRegex_eq_ok_iff.1 hp
      obtain ⟨form₀, hreads₀, hlimits⟩ := compile?_eq_some_iff.1 (anchored_eq_ok_iff.1 hc')
      obtain ⟨rfl, rfl⟩ := hreads₀.unique hreads'
      exact hlimits
    · intro hlimits
      exact ⟨_, ofRegex_eq_ok_iff.2 ⟨_, anchored_eq_ok_iff.2
        (compile?_eq_some_iff.2 ⟨form', hreads', hlimits⟩), rfl⟩⟩
  · obtain ⟨c', hc', rfl⟩ := ofRegex_eq_ok_iff.1 hp
    obtain ⟨form₀, hreads₀, -, -⟩ := compile?_eq_some_iff.1 (anchored_eq_ok_iff.1 hc')
    obtain ⟨-, rfl⟩ := hreads₀.unique hreads'
    have hwhole : ∀ ms, Traces text.toList.toArray R 0 text.toList.length ms ↔
        Traces text.toList.toArray c.root 0 text.toList.length ms := by
      simpa using htraces text.toList.toArray
    refine ⟨?_, fun outcome houtcome => ?_⟩
    · rw [accepts_iff_spans rfl, spans_iff_exists_traces, spans_iff_exists_traces]
      simp only [hwhole]
    · obtain ⟨walk, args, hsearch, hR, hargs, hcaptures⟩ := exists_of_extract? rfl rfl houtcome
      exact ⟨walk, args, hsearch, (hwhole _).1 hR, hargs, hcaptures, fun a => hcaptures.isPartOf⟩

/-- In an alternative between anchors none of the parts matches the beginning or the end of a text
alone. -/
theorem regex_matches_whole_alternation : ∃ p, ofRegex "^a|(b)" = .ok p ∧
    ∀ text : String, p.accepts text = true ↔ text = "a" ∨ text = "b" := by
  have hread : Reader.read .start "a|(b)".toList = some ⟨false,
      [.group (.numbered 1) (.literal ⟨'b', false⟩)], [.literal ⟨'a', false⟩], [], [none]⟩ := by
    change Reader.read ⟨false, [], [], [], []⟩ ['a', '|', '(', 'b', ')'] = _
    rw [Reader.read_literal (by decide), Reader.read_bar, Form.ofReversed_singleton,
      Reader.read_plain (by decide), Reader.read_literal (by decide), Reader.read_leave,
      Reader.read_nil _ rfl]
    rfl
  have hreads : Reads "a|(b)"
      (.alternation (.literal ⟨'a', false⟩) (.group (.numbered 1) (.literal ⟨'b', false⟩)))
      ⟨.alt (.one (.single 'a')) (.group 1 (.one (.single 'b'))), [none]⟩ :=
    ⟨_, _, hread, rfl, rfl, rfl, rfl⟩
  have hr := compile?_eq_some_iff.2 ⟨_, hreads, by decide, by decide +kernel⟩
  have hform := parse?_eq_some_iff.2 ⟨_, hread, rfl, rfl, rfl, by decide⟩
  have hok : (ofRegex "^a|(b)").isOk = true := by decide +kernel
  cases hp : ofRegex "^a|(b)" with
  | error e => simp [hp, Except.isOk, Except.toBool] at hok
  | ok p =>
    have hwhole := (regex_matches_whole hr hform rfl (by simp [withAnchors])).2 p hp
    refine ⟨p, rfl, fun text => ?_⟩
    rw [(hwhole text).1]
    simp only [spans_iff_exists_traces, traces_alt_iff, traces_group_iff,
      denotes_one _ text.toList, CharClass.contains_single, stretch_zero_iff (Nat.le_refl _)]
    constructor
    · rintro ⟨_, ⟨-, _, ⟨rfl, -⟩, _, ha, rfl⟩ | ⟨_, ⟨-, _, ⟨rfl, -⟩, _, hb, rfl⟩, -⟩⟩
      · exact .inl (String.toList_inj.1 ha)
      · exact .inr (String.toList_inj.1 hb)
    · rintro (rfl | rfl)
      · exact ⟨_, .inl ⟨rfl, _, ⟨rfl, trivial⟩, _, rfl, rfl⟩⟩
      · exact ⟨_, .inr ⟨_, ⟨rfl, _, ⟨rfl, trivial⟩, _, rfl, rfl⟩, rfl⟩⟩

/-- An expression of `n` groups around a letter, each inside the one before it. -/
def nested : Nat → List Char
  | 0 => ['a']
  | n + 1 => '(' :: '?' :: ':' :: (nested n ++ [')'])

def nestedForm : Nat → Form
  | 0 => .literal ⟨'a', false⟩
  | n + 1 => .group (.plain []) (nestedForm n)

def nestedRegex : Nat → Regex
  | 0 => .one (.single 'a')
  | n + 1 => .enclosed (nestedRegex n)

theorem read_nested (n : Nat) (opened : List Reader.Opened) (names : List (Option String))
    (rest : List Char) : Reader.read ⟨false, [], [], opened, names⟩ (nested n ++ rest) =
      Reader.read ⟨false, [nestedForm n], [], opened, names⟩ rest := by
  induction n generalizing opened rest with
  | zero => exact Reader.read_literal (by decide)
  | succ n ih =>
    simp only [nested, List.cons_append, List.append_assoc, List.nil_append]
    rw [Reader.read_enter, ih, Reader.read_leave]
    rfl

theorem meaning_nestedForm (n : Nat) :
    (nestedForm n).meaning .default = some (nestedRegex n, .default) := by
  induction n with
  | zero => rfl
  | succ n ih =>
    simp only [nestedForm, Form.meaning, Flags.change, List.foldl_nil, ih]
    rfl

theorem depth_nestedForm (n : Nat) (within : Option Form.Chain) :
    (nestedForm n).depth within = n := by
  induction n generalizing within with
  | zero => rfl
  | succ n ih => simp [nestedForm, Form.depth, ih, Nat.add_comm]

theorem turnsOn_nestedForm (n : Nat) (flag : Flag) : (nestedForm n).turnsOn flag = false := by
  induction n with
  | zero => rfl
  | succ n ih => simp [nestedForm, Form.turnsOn, GroupKind.turnsOn, ih]

theorem fits_nestedRegex (n : Nat) : (nestedRegex n).fits = true := by
  have htree : (nestedRegex n).tree = (Regex.one (.single 'a')).tree := by
    induction n with
    | zero => rfl
    | succ n ih => simpa [nestedRegex, tree, alternatives] using ih
  have hfits : (Regex.one (.single 'a')).fits = true := by decide +kernel
  rw [fits, htree]
  exact hfits

theorem reads_nested (n : Nat) :
    Reads (String.ofList (nested n)) (nestedForm n) ⟨nestedRegex n, []⟩ := by
  have hread := read_nested n [] [] []
  rw [List.append_nil, Reader.read_nil _ rfl] at hread
  exact ⟨_, _, by rw [String.toList_ofList]; exact hread, rfl, rfl, meaning_nestedForm n, rfl⟩

/-- The anchors of a pattern are two levels of nesting. -/
theorem ofRegex_nested {n : Nat} (hn : nestingLimit < n + 2) :
    ofRegex (String.ofList (nested n)) = .error (.regex (String.ofList (nested n))) := by
  have hreads : Reads ("^(?:" ++ String.ofList (nested n) ++ ")$")
      (.concat (.assertion .caret) (.concat (.group (.plain []) (nestedForm n))
        (.assertion .dollar))) ⟨(nestedRegex n).between, []⟩ :=
    ⟨_, _, read_anchored (read_nested n _ _ _), rfl, rfl,
      meaning_between (meaning_nestedForm n), rfl⟩
  have hnone : compile? ("^(?:" ++ String.ofList (nested n) ++ ")$") = none := by
    rw [Option.eq_none_iff_forall_ne_some]
    intro c hc
    obtain ⟨form, hform, hdepth, -⟩ := compile?_eq_some_iff.1 hc
    obtain ⟨rfl, -⟩ := hform.unique hreads
    simp only [Form.depth, depth_nestedForm, reduceCtorEq, if_false, if_true] at hdepth
    omega
  rw [ofRegex, anchored, hnone]

/-- An expression that keeps within the limits may be refused with the anchors around it. -/
theorem exists_nested_refused : ∃ c, compile? (String.ofList (nested 249)) = some c ∧
    Form.parse? (String.ofList (nested 249)).toList = some (nestedForm 249, c.names) ∧
    (nestedForm 249).turnsOn .verbose = false ∧
    ofRegex (String.ofList (nested 249)) = .error (.regex (String.ofList (nested 249))) := by
  have hreads := reads_nested 249
  have hdepth : (nestedForm 249).depth none ≤ nestingLimit := by
    rw [depth_nestedForm]
    decide
  refine ⟨_, compile?_eq_some_iff.2 ⟨_, hreads, hdepth, fits_nestedRegex 249⟩, ?_,
    turnsOn_nestedForm 249 _, ofRegex_nested (by decide)⟩
  obtain ⟨s, g, hread, hopened, hinner, -, hnames⟩ := hreads
  exact parse?_eq_some_iff.2 ⟨s, hread, hopened, hinner, hnames, hdepth⟩

end StepPattern

end Rehearsal
