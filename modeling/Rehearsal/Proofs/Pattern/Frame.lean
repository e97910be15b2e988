import Rehearsal.Proofs.Pattern.Action

/-!
# Reading inside other groups

An expression that does not switch verbose mode on is read in the same way inside other groups and
after other items as on its own (`Frames`, `exists_frames_of_read`). Flags are only ever added to
what was read, so that none of the states on the way is in verbose mode (`turnsOn_of_read`,
`State.IsPlain`).
-/

namespace Rehearsal

namespace Regex

/-- Is the flag switched on for the group? -/
def GroupKind.turnsOn (flag : Flag) : GroupKind → Bool
  | numbered _ => false
  | plain changes => changes.contains (flag, true)

/-- Is the flag switched on somewhere in the form? -/
def Form.turnsOn (flag : Flag) : Form → Bool
  | flags changes => changes.contains (flag, true)
  | rounds _ _ _ inner => turnsOn flag inner
  | group kind inner => kind.turnsOn flag || turnsOn flag inner
  | concat a b => turnsOn flag a || turnsOn flag b
  | alternation a b => turnsOn flag a || turnsOn flag b
  | _ => false

namespace Form

variable {flag : Flag}

theorem turnsOn_foldl {join : Form → Form → Form}
    (hjoin : ∀ a b, (join a b).turnsOn flag = (a.turnsOn flag || b.turnsOn flag)) (a : Form)
    (items : List Form) : (items.foldl (fun acc b => join b acc) a).turnsOn flag =
      (a :: items).any (turnsOn flag) := by
  induction items generalizing a with
  | nil => simp
  | cons b items ih =>
    simp only [List.foldl_cons, ih, List.any_cons, hjoin, Bool.or_assoc, Bool.or_left_comm]

theorem turnsOn_ofReversed (items : List Form) :
    (ofReversed items).turnsOn flag = items.any (turnsOn flag) := by
  cases items with
  | nil => rfl
  | cons a items => exact turnsOn_foldl (fun _ _ => rfl) a items

theorem turnsOn_ofBranches (branches : List Form) :
    (ofBranches branches).turnsOn flag = branches.any (turnsOn flag) := by
  cases branches with
  | nil => rfl
  | cons a branches => exact turnsOn_foldl (fun _ _ => rfl) a branches

end Form

namespace Reader

variable {flag : Flag} {s t : State} {act : Action} {tail cs : List Char}

/-! ### Flags that were read -/

def Opened.turnsOn (flag : Flag) (o : Opened) : Bool :=
  o.kind.turnsOn flag || o.items.any (Form.turnsOn flag) || o.branches.any (Form.turnsOn flag)

/-- Is the flag switched on in what was read? -/
def State.turnsOn (flag : Flag) (s : State) : Bool :=
  s.inner.turnsOn flag || s.opened.any (Opened.turnsOn flag)

theorem turnsOn_inner (s : State) : s.inner.turnsOn flag =
    (s.items.any (Form.turnsOn flag) || s.branches.any (Form.turnsOn flag)) := by
  rw [State.inner, Form.turnsOn_ofBranches, List.any_cons, Form.turnsOn_ofReversed]

theorem again_eq_some_iff {least : Nat} {most : Option Nat} {greedy : Bool} :
    Action.perform? s (.again least most greedy) = some t ↔ ∃ item items,
      s.items = item :: items ∧ item.isRepeatable = true ∧
        { s with items := .rounds least most greedy item :: items } = t := by
  rw [Action.perform?, State.repeatLast?]
  cases s.items with
  | nil => simp
  | cons item items => cases hrepeat : item.isRepeatable <;> simp [hrepeat]

theorem exists_of_leave? (h : s.leave? = some t) :
    ∃ o opened, s.opened = o :: opened ∧
      t = ⟨o.verbose, .group o.kind s.inner :: o.items, o.branches, opened, s.names⟩ := by
  rw [State.leave?] at h
  split at h
  · cases h
  · rename_i o opened heq
    cases h
    exact ⟨o, opened, heq, rfl⟩

theorem capture_eq_some_iff {name : Option String} :
    Action.perform? s (.capture name) = some t ↔
      (name.isSome && s.names.contains name) = false ∧
        s.enter (.numbered (s.names.length + 1)) s.verbose (name :: s.names) = t := by
  rw [Action.perform?]
  cases name.isSome && s.names.contains name <;> simp

theorem Action.turnsOn_of_perform? (h : act.perform? s = some t) (hs : s.turnsOn flag = true) :
    t.turnsOn flag = true := by
  simp only [State.turnsOn, turnsOn_inner, Bool.or_eq_true] at hs ⊢
  cases act with
  | add item =>
    cases h
    simp only [State.add, List.any_cons, Bool.or_eq_true]
    tauto
  | flags changes =>
    cases h
    simp only [State.add, List.any_cons, Bool.or_eq_true]
    tauto
  | bar =>
    cases h
    simp only [List.any_cons, Bool.or_eq_true, Form.turnsOn_ofReversed]
    tauto
  | capture name =>
    obtain ⟨-, rfl⟩ := capture_eq_some_iff.1 h
    simp only [State.enter, List.any_cons, Opened.turnsOn, Bool.or_eq_true]
    tauto
  | enclose changes =>
    cases h
    simp only [State.enter, List.any_cons, Opened.turnsOn, Bool.or_eq_true]
    tauto
  | leave =>
    obtain ⟨o, opened, hopened, rfl⟩ := exists_of_leave? h
    simp only [hopened, List.any_cons, Opened.turnsOn, Bool.or_eq_true] at hs
    simp only [List.any_cons, Form.turnsOn, turnsOn_inner, Bool.or_eq_true]
    tauto
  | again least most greedy =>
    obtain ⟨item, items, hitems, -, rfl⟩ := again_eq_some_iff.1 h
    simp only [hitems, List.any_cons, Bool.or_eq_true] at hs
    simp only [List.any_cons, Form.turnsOn, Bool.or_eq_true]
    tauto

/-- Reading on takes a step, unless there is nothing left. -/
theorem exists_of_read_skip (h : read s cs = some t) :
    skip s.verbose cs = [] ∧ t = s ∨ ∃ c rest s' more, skip s.verbose cs = c :: rest ∧
      step s c rest = some (s', more) ∧ more.length < cs.length ∧ read s' more = some t := by
  rw [read] at h
  split at h
  · rename_i hskip
    cases h
    exact .inl ⟨hskip, rfl⟩
  · rename_i c rest hskip
    split at h
    · rename_i s' more hstep
      split_ifs at h with hlt
      exact .inr ⟨c, rest, s', more, hskip, hstep, hlt, h⟩
    · cases h

/-- What was switched on stays so until the end. -/
theorem turnsOn_of_read (h : read s cs = some t) (hs : s.turnsOn flag = true) :
    t.turnsOn flag = true := by
  induction hn : cs.length using Nat.strong_induction_on generalizing s cs with
  | h n ih =>
    subst hn
    obtain ⟨-, rfl⟩ | ⟨c, rest, s', more, -, hstep, hlt, hread⟩ := exists_of_read_skip h
    · exact hs
    · obtain ⟨act, -, hact, -⟩ := exists_begins hstep
      exact ih _ hlt hread (act.turnsOn_of_perform? hact hs) rfl

/-- No group that was begun goes on in verbose mode. -/
def State.IsPlain (s : State) : Prop := s.verbose = false ∧ ∀ o ∈ s.opened, o.verbose = false

theorem verboseAfter_eq_false {changes : FlagChanges}
    (h : changes.contains (.verbose, true) = false) : verboseAfter false changes = false := by
  rw [verboseAfter]
  split
  · rename_i flag on hfind
    have hmem := List.mem_of_find?_eq_some hfind
    have hflag : flag = .verbose := by simpa using List.find?_some hfind
    subst hflag
    cases on with
    | false => rfl
    | true => simp [hmem] at h
  · rfl

theorem State.IsPlain.perform? (hs : s.IsPlain) (h : act.perform? s = some t)
    (ht : t.turnsOn .verbose = false) : t.IsPlain := by
  obtain ⟨hv, hopened⟩ := hs
  cases act with
  | add item =>
    cases h
    exact ⟨hv, hopened⟩
  | flags changes =>
    cases h
    simp only [State.turnsOn, turnsOn_inner, State.add, List.any_cons, Form.turnsOn,
      Bool.or_eq_false_iff] at ht
    refine ⟨?_, hopened⟩
    simp only [hv]
    exact verboseAfter_eq_false ht.1.1.1
  | bar =>
    cases h
    exact ⟨hv, hopened⟩
  | capture name =>
    obtain ⟨-, rfl⟩ := capture_eq_some_iff.1 h
    exact ⟨hv, List.forall_mem_cons.2 ⟨hv, hopened⟩⟩
  | enclose changes =>
    cases h
    simp only [State.turnsOn, State.enter, List.any_cons, Opened.turnsOn, GroupKind.turnsOn,
      Bool.or_eq_false_iff] at ht
    refine ⟨?_, List.forall_mem_cons.2 ⟨hv, hopened⟩⟩
    simp only [State.enter, hv]
    exact verboseAfter_eq_false ht.2.1.1.1
  | leave =>
    obtain ⟨o, opened, heq, rfl⟩ := exists_of_leave? h
    rw [heq] at hopened
    exact List.forall_mem_cons.1 hopened
  | again least most greedy =>
    obtain ⟨item, items, hitems, -, rfl⟩ := again_eq_some_iff.1 h
    exact ⟨hv, hopened⟩

/-! ### Frames -/

/-- What is read inside a group after some items that stand in it already, and what would be read
without these: the items under way and the branches. Single items are what they consist of. -/
inductive Leads (pre : List Form) : List Form → List Form → List Form → List Form → Prop where
  | first {items : List Form} (h : ∀ f ∈ items, f.IsItem) : Leads pre items [] (items ++ pre) []
  | later {items first : List Form} (between : List Form) (h : ∀ f ∈ items, f.IsItem)
      (hfirst : ∀ f ∈ first, f.IsItem) :
      Leads pre items (between ++ [Form.ofReversed first]) items
        (between ++ [Form.ofReversed (first ++ pre)])

/-- The second state is that of a reader who has read the same as in the first state, but began
after the items `pre` of the group `outer` is about. -/
inductive Frames (pre : List Form) (outer : List Opened) : State → State → Prop where
  | here {verbose : Bool} {items branches items' branches' : List Form}
      {names : List (Option String)} (h : Leads pre items branches items' branches') :
      Frames pre outer ⟨verbose, items, branches, [], names⟩
        ⟨verbose, items', branches', outer, names⟩
  | within {verbose before : Bool} {items branches begun shut begun' shut' : List Form}
      (opened : List Opened) {kind : GroupKind} {names : List (Option String)}
      (h : Leads pre begun shut begun' shut') :
      Frames pre outer ⟨verbose, items, branches, opened ++ [⟨kind, begun, shut, before⟩], names⟩
        ⟨verbose, items, branches, opened ++ ⟨kind, begun', shut', before⟩ :: outer, names⟩

variable {pre : List Form} {outer : List Opened} {s' : State}

theorem Frames.verbose_eq (h : Frames pre outer s s') : s'.verbose = s.verbose := by
  cases h <;> rfl

theorem Frames.names_eq (h : Frames pre outer s s') : s'.names = s.names := by
  cases h <;> rfl

section

variable {items branches items' branches' : List Form}

theorem Leads.cons {f : Form} (h : Leads pre items branches items' branches') (hf : f.IsItem) :
    Leads pre (f :: items) branches (f :: items') branches' := by
  cases h with
  | first h => exact .first (List.forall_mem_cons.2 ⟨hf, h⟩)
  | later between h hfirst => exact .later between (List.forall_mem_cons.2 ⟨hf, h⟩) hfirst

theorem Leads.bar (h : Leads pre items branches items' branches') :
    Leads pre [] (Form.ofReversed items :: branches) [] (Form.ofReversed items' :: branches') := by
  cases h with
  | first h => exact .later [] (by simp) h
  | later between h hfirst => exact .later (Form.ofReversed items :: between) (by simp) hfirst

theorem Leads.exists_tail {f : Form} (h : Leads pre (f :: items) branches items' branches') :
    ∃ more, items' = f :: more ∧ Leads pre items branches more branches' := by
  cases h with
  | first h => exact ⟨_, rfl, .first (List.forall_mem_cons.1 h).2⟩
  | later between h hfirst => exact ⟨_, rfl, .later between (List.forall_mem_cons.1 h).2 hfirst⟩

end

theorem Frames.exists_perform? (h : Frames pre outer s s') (hitem : act.AddsItem)
    (ht : act.perform? s = some t) : ∃ t', act.perform? s' = some t' ∧ Frames pre outer t t' := by
  cases act with
  | add item =>
    cases ht
    refine ⟨_, rfl, ?_⟩
    cases h with
    | here h => exact .here (h.cons hitem)
    | within opened h => exact .within opened h
  | flags changes =>
    cases ht
    refine ⟨_, rfl, ?_⟩
    cases h with
    | here h => exact .here (h.cons fun _ => rfl)
    | within opened h => exact .within opened h
  | bar =>
    cases ht
    refine ⟨_, rfl, ?_⟩
    cases h with
    | here h => exact .here h.bar
    | within opened h => exact .within opened h
  | capture name =>
    obtain ⟨hnew, rfl⟩ := capture_eq_some_iff.1 ht
    refine ⟨_, capture_eq_some_iff.2 ⟨h.names_eq ▸ hnew, rfl⟩, ?_⟩
    cases h with
    | here h => exact .within [] h
    | within opened h => exact .within (_ :: opened) h
  | enclose changes =>
    cases ht
    refine ⟨_, rfl, ?_⟩
    cases h with
    | here h => exact .within [] h
    | within opened h => exact .within (_ :: opened) h
  | leave =>
    obtain ⟨o, opened, heq, rfl⟩ := exists_of_leave? ht
    cases h with
    | here h => cases heq
    | within inside h =>
      cases inside with
      | nil =>
        cases heq
        exact ⟨_, rfl, .here (h.cons fun _ => rfl)⟩
      | cons o' inside =>
        cases heq
        exact ⟨_, rfl, .within inside h⟩
  | again least most greedy =>
    obtain ⟨item, items, hitems, hrepeat, rfl⟩ := again_eq_some_iff.1 ht
    cases h with
    | here h =>
      cases hitems
      obtain ⟨more, rfl, hmore⟩ := h.exists_tail
      exact ⟨_, again_eq_some_iff.2 ⟨item, more, rfl, hrepeat, rfl⟩,
        .here (hmore.cons fun _ => rfl)⟩
    | within opened h =>
      cases hitems
      exact ⟨_, again_eq_some_iff.2 ⟨item, _, rfl, hrepeat, rfl⟩, .within opened h⟩

/-- What is read on its own is read in the same way inside other groups, with closing parentheses
and dollar signs behind it. -/
theorem exists_frames_of_read (h : read s cs = some t) (hs : s.IsPlain)
    (ht : t.turnsOn .verbose = false) (hframes : Frames pre outer s s') (htail : IsInert tail) :
    ∃ t', Frames pre outer t t' ∧ t.verbose = false ∧ read s' (cs ++ tail) = read t' tail := by
  induction hn : cs.length using Nat.strong_induction_on generalizing s s' cs with
  | h n ih =>
    subst hn
    obtain ⟨hskip, rfl⟩ | ⟨c, rest, u, more, hskip, hstep, hlt, hread⟩ := exists_of_read_skip h
    · obtain rfl : cs = [] := by rwa [hs.1] at hskip
      exact ⟨s', hframes, hs.1, rfl⟩
    · obtain rfl : cs = c :: rest := by rwa [hs.1] at hskip
      obtain ⟨act, hitem, hact, hbegins⟩ := exists_begins hstep
      have hu : u.turnsOn .verbose = false := by
        rw [← Bool.not_eq_true]
        exact fun hon => by simp [turnsOn_of_read hread hon] at ht
      obtain ⟨u', hact', hframes'⟩ := hframes.exists_perform? hitem hact
      obtain ⟨t', ht', hverbose, hrest⟩ := ih _ hlt hread (hs.perform? hact hu) hframes' rfl
      have hv : s'.verbose = false := hframes.verbose_eq.trans hs.1
      have hstep' : step s' c (rest ++ tail) = some (u', more ++ tail) := by
        rw [hbegins hs.1 tail htail s' hv, hact']
        rfl
      refine ⟨t', ht', hverbose, ?_⟩
      rw [List.cons_append, read_step hv hstep' (by simpa [Nat.lt_succ_iff] using hlt), hrest]

end Reader

end Regex

end Rehearsal
