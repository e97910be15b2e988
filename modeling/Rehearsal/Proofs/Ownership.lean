import Rehearsal.Proofs.Isolation

/-!
# Values of the runner

The runner stores values when it enters a node. They stay where they are until the node is left:
user code cannot store anything under their keys, in whatever scope. It may ask for changes in
place, though, and where it asks for a value of the right kind the change is made
(`Change.apply`). So what is found under a key of the runner is the value that was stored, after
the changes in place that were asked for in the scope (`Context.Held`, `Owned`).
-/

namespace Rehearsal

/-- What a change in place makes of the value under a key. -/
def Change.apply (key : String) (d : Datum) (change : Change) : Datum :=
  if change.key = key then
    match d.as? change.kind with
    | some x => .of change.kind (change.f x)
    | none => d
  else d

/-- The value under a key after some changes in place. -/
def changed (key : String) (d : Datum) (changes : List Change) : Datum :=
  changes.foldl (Change.apply key) d

theorem changed_concat (key : String) (d : Datum) (changes : List Change) (change : Change) :
    changed key d (changes ++ [change]) = change.apply key (changed key d changes) :=
  List.foldl_concat _ _ _ _

namespace Change

variable {key : String} {d : Datum} {change : Change}

theorem apply_of_ne (h : change.key ≠ key) : change.apply key d = d := if_neg h

theorem apply_of_none (h : change.key = key → d.as? change.kind = none) :
    change.apply key d = d := by
  unfold apply
  split
  · rename_i hkey
    rw [h hkey]
  · rfl

/-- A change in place keeps to the kind of the value. -/
theorem isSome_as?_apply (key : String) (d : Datum) (change : Change) (k : Datum.Kind) :
    ((change.apply key d).as? k).isSome = (d.as? k).isSome := by
  obtain ⟨key', kind, f⟩ := change
  unfold apply
  split
  · cases d <;> cases kind <;> cases k <;> rfl
  · rfl

end Change

theorem isSome_as?_changed (key : String) (d : Datum) (changes : List Change) (k : Datum.Kind) :
    ((changed key d changes).as? k).isSome = (d.as? k).isSome := by
  induction changes generalizing d with
  | nil => rfl
  | cons change rest ih => exact (ih _).trans (Change.isSome_as?_apply key d change k)

/-- A value stays the same if all changes are for other keys or for values of other kinds. -/
theorem changed_eq_self {key : String} {d : Datum} {changes : List Change}
    (h : ∀ change ∈ changes, change.key = key → d.as? change.kind = none) :
    changed key d changes = d := by
  induction changes with
  | nil => rfl
  | cons change rest ih =>
    obtain ⟨hchange, hrest⟩ := List.forall_mem_cons.1 h
    rw [changed, List.foldl_cons, Change.apply_of_none hchange]
    exact ih hrest

namespace Context

/-- Under the key the layers hold a value of the runner, in a layer with the level that may be
changed in place and lies on so many others. -/
inductive Held (key : String) (level : ScopeLevel) (d : Datum) (floor : Nat) : List Layer → Prop
  | here {l : Layer} {rest : List Layer} (hlevel : l.level = level) (hshared : l.shared = false)
      (hkey : l.find? key = some ⟨d, .runner⟩) (hfloor : rest.length = floor) :
      Held key level d floor (l :: rest)
  | inside {l : Layer} {rest : List Layer} (hnone : l.find? key = none)
      (hrest : Held key level d floor rest) : Held key level d floor (l :: rest)

namespace Held

variable {key : String} {level : ScopeLevel} {d : Datum} {floor : Nat} {l : Layer}
  {ls ls' : List Layer}

theorem findIn_eq (h : Held key level d floor ls) :
    findIn key ls = some (level, ⟨d, .runner⟩) := by
  induction h with
  | here hlevel hshared hkey hfloor => rw [findIn, hkey, ← hlevel]
  | inside hnone hrest ih => rw [findIn, hnone, ← ih]

theorem exists_level (h : Held key level d floor ls) : ∃ l ∈ ls, l.level = level := by
  induction h with
  | here hlevel hshared hkey hfloor => exact ⟨_, List.mem_cons_self, hlevel⟩
  | inside hnone hrest ih =>
    obtain ⟨l, hl, hlevel⟩ := ih
    exact ⟨l, List.mem_cons_of_mem _ hl, hlevel⟩

/-- The layers further in may be closed. -/
theorem tail (h : Held key level d floor (l :: ls)) (hlength : floor < ls.length) :
    Held key level d floor ls := by
  cases h with
  | here hlevel hshared hkey hfloor => exact absurd hfloor (Nat.ne_of_gt hlength)
  | inside hnone hrest => exact hrest

theorem pop {c : Context} (h : Held key level d floor c.layers)
    (hlength : floor < c.pop.layers.length) : Held key level d floor c.pop.layers := by
  obtain ⟨layers, output, control⟩ := c
  cases layers with
  | nil => exact h
  | cons l rest =>
    cases rest with
    | nil => exact h
    | cons l' rest => exact h.tail hlength

/-- Something else may be stored. -/
theorem put {key' : String} (h : Held key level d floor (l :: ls)) (hne : key' ≠ key) (s : Stored) :
    Held key level d floor (l.put key' s :: ls) := by
  cases h with
  | here hlevel hshared hkey hfloor =>
    exact .here hlevel hshared ((l.find?_put_ne hne s).trans hkey) hfloor
  | inside hnone hrest => exact .inside ((l.find?_put_ne hne s).trans hnone) hrest

theorem store {key' : String} {c : Context} (h : Held key level d floor c.layers)
    (hne : key' ≠ key) (s : Stored) : Held key level d floor (c.store key' s).layers := by
  obtain ⟨layers, output, control⟩ := c
  cases layers with
  | nil => exact h
  | cons l rest => exact h.put hne s

theorem ownAll {c : Context} {values : List (String × Datum)} (h : Held key level d floor c.layers)
    (hne : ∀ v ∈ values, v.1 ≠ key) : Held key level d floor (c.ownAll values).layers := by
  induction values generalizing c with
  | nil => exact h
  | cons v rest ih =>
    obtain ⟨hv, hrest⟩ := List.forall_mem_cons.1 hne
    exact ih (c := c.own v.1 v.2) (h.store hv _) hrest

/-- Something else may be changed in place. -/
theorem updateIn_ne {key' : String} {k : Datum.Kind} {f : k.Carrier → k.Carrier} {x : k.Carrier}
    (h : Held key level d floor ls) (hne : key' ≠ key)
    (hupdate : updateIn key' k f ls = some (ls', x)) : Held key level d floor ls' := by
  induction h generalizing ls' with
  | @here l rest hlevel hshared hkey hfloor =>
    unfold updateIn at hupdate
    rw [hshared] at hupdate
    split at hupdate
    · rename_i s hs
      cases hx : s.datum.as? k with
      | none => simp [hx] at hupdate
      | some y =>
        simp only [hx, Bool.false_eq_true, if_false, Option.some.injEq, Prod.mk.injEq] at hupdate
        rw [← hupdate.1]
        exact .here hlevel hshared ((l.find?_put_ne hne _).trans hkey) hfloor
    · obtain ⟨⟨rest', y⟩, hrest, heq⟩ := Option.map_eq_some_iff.1 hupdate
      cases heq
      have hlength := congrArg List.length (levels_updateIn hrest)
      rw [List.length_map, List.length_map] at hlength
      exact .here hlevel hshared hkey (hlength.trans hfloor)
  | @inside l rest hnone hrest ih =>
    unfold updateIn at hupdate
    split at hupdate
    · split at hupdate
      · cases hupdate
      · split at hupdate
        · cases hupdate
          exact .inside ((l.find?_put_ne hne _).trans hnone) hrest
        · cases hupdate
    · obtain ⟨⟨rest', y⟩, hupdate', heq⟩ := Option.map_eq_some_iff.1 hupdate
      cases heq
      exact .inside hnone (ih hupdate')

/-- The value itself may be changed in place. -/
theorem updateIn_self {k : Datum.Kind} (f : k.Carrier → k.Carrier) {x : k.Carrier}
    (h : Held key level d floor ls) (hx : d.as? k = some x) :
    ∃ ls', updateIn key k f ls = some (ls', f x) ∧ Held key level (.of k (f x)) floor ls' := by
  induction h with
  | @here l rest hlevel hshared hkey hfloor =>
    refine ⟨l.put key ⟨.of k (f x), .runner⟩ :: rest, ?_,
      .here hlevel hshared (l.find?_put_self key _) hfloor⟩
    rw [updateIn, hkey]
    simp [hshared, hx]
  | @inside l rest hnone hrest ih =>
    obtain ⟨ls', hupdate, hheld⟩ := ih
    exact ⟨l :: ls', by rw [updateIn, hnone, hupdate]; rfl, .inside hnone hheld⟩

theorem updateIn_eq_none {k : Datum.Kind} (f : k.Carrier → k.Carrier)
    (h : Held key level d floor ls) (hkind : d.as? k = none) : updateIn key k f ls = none := by
  induction h with
  | here hlevel hshared hkey hfloor =>
    rw [updateIn, hkey]
    simp [hkind]
  | inside hnone hrest ih =>
    rw [updateIn, hnone, ih]
    rfl

variable {c c' : Context}

/-- User code cannot store anything under the key. -/
theorem set_eq (h : Held key level d floor c.layers) (d' : Datum) :
    c.set key d' = .error ⟨key⟩ := by
  have hfound : c.find? key = some (level, ⟨d, .runner⟩) := h.findIn_eq
  rw [set, hfound]

/-- It cannot change the value as if it were of another kind. -/
theorem update_eq {k : Datum.Kind} (f : k.Carrier → k.Carrier)
    (h : Held key level d floor c.layers) (hkind : d.as? k = none) :
    c.update key k f = (c, none) := by
  rw [update, h.updateIn_eq_none f hkind]

theorem of_set {key' : String} {d' : Datum} (h : Held key level d floor c.layers)
    (hset : c.set key' d' = .ok c') : Held key level d floor c'.layers := by
  by_cases hkey : key' = key
  · rw [hkey, h.set_eq] at hset
    cases hset
  · rw [eq_store_of_set hset]
    exact h.store hkey _

theorem of_update (change : Change) (h : Held key level d floor c.layers) :
    Held key level (change.apply key d) floor
      (c.update change.key change.kind change.f).1.layers := by
  by_cases hkey : change.key = key
  · subst hkey
    cases hx : d.as? change.kind with
    | none =>
      rw [h.update_eq change.f hx, Change.apply_of_none fun _ => hx]
      exact h
    | some x =>
      obtain ⟨ls', hupdate, hheld⟩ := h.updateIn_self change.f hx
      rw [update, hupdate, Change.apply, if_pos rfl, hx]
      exact hheld
  · rw [Change.apply_of_ne hkey]
    unfold update
    split
    · rename_i ls' x hupdate
      exact h.updateIn_ne hkey hupdate
    · exact h

/-- A value of the runner is there after everything that user code may do, but for the changes in
place. -/
theorem lasting (key : String) (level : ScopeLevel) (d : Datum) (floor : Nat) :
    Lasting fun changes c => Held key level (changed key d changes) floor c.layers where
  set _ _ _ _ _ h hset := h.of_set hset
  update _ _ change h := by
    rw [changed_concat]
    exact h.of_update change
  layers _ _ _ h hlayers := by
    rwa [hlayers]

end Held

end Context

namespace OpenNode

variable {p : Plan} {n m : OpenNode} {nodes : List OpenNode}

/-- The layer that the runner makes when it enters the node. -/
def layer (n : OpenNode) : Layer := ⟨n.level, n.values.map fun v => (v.1, ⟨v.2, .runner⟩), false⟩

theorem layers_enter (n : OpenNode) (c : Context) :
    ((c.push n.level).ownAll n.values).layers = n.layer :: c.layers := by
  cases n <;> rfl

theorem find?_layer {v : String × Datum} (hv : v ∈ n.values) :
    n.layer.find? v.1 = some ⟨v.2, .runner⟩ := by
  cases n with
  | suite p => cases hv
  | feature q =>
    obtain rfl := List.mem_singleton.1 hv
    rfl
  | rule q =>
    obtain rfl := List.mem_singleton.1 hv
    rfl
  | scenario q =>
    rcases List.mem_pair.1 hv with rfl | rfl
    · rfl
    · rfl

/-- The levels of nodes count inwards. -/
def rank : OpenNode → Nat
  | suite _ => 0
  | feature _ => 1
  | rule _ => 2
  | scenario _ => 3

theorem rank_lt_of_holds (h : m.Holds n) : m.rank < n.rank := by
  cases m <;> cases n <;> first | exact h.elim | exact Nat.lt_of_sub_ne_zero Nat.noConfusion

theorem Linked.rank_lt (h : Linked p (n :: nodes)) : ∀ m ∈ nodes, m.rank < n.rank := by
  induction nodes generalizing n with
  | nil => simp
  | cons a rest ih =>
    obtain ⟨hholds, hrest⟩ := h
    refine List.forall_mem_cons.2 ⟨rank_lt_of_holds hholds, fun m hm => ?_⟩
    exact Nat.lt_trans (ih hrest m hm) (rank_lt_of_holds hholds)

/-- The rank of the nodes for which the runner uses the key. -/
def rankOfKey (key : String) : Nat :=
  if key = "feature" then 1 else if key = "rule" then 2 else 3

theorem rankOfKey_eq {v : String × Datum} (hv : v ∈ n.values) : rankOfKey v.1 = n.rank := by
  cases n with
  | suite p => cases hv
  | feature q =>
    obtain rfl := List.mem_singleton.1 hv
    rfl
  | rule q =>
    obtain rfl := List.mem_singleton.1 hv
    rfl
  | scenario q =>
    rcases List.mem_pair.1 hv with rfl | rfl
    · rfl
    · rfl

theorem rank_eq_of_level (h : n.level = m.level) : n.rank = m.rank := by
  cases n <;> cases m <;> first | rfl | cases h

theorem level_ne_root (n : OpenNode) : n.level ≠ .root := by
  cases n <;> exact ScopeLevel.noConfusion

/-- The suite has no values. -/
theorem Linked.length_pos (h : Linked p (n :: nodes)) {v : String × Datum} (hv : v ∈ n.values) :
    0 < nodes.length := by
  cases nodes with
  | nil =>
    obtain rfl : n = .suite p := h
    cases hv
  | cons a rest => exact Nat.succ_pos _

/-- Inside a node no other node uses its keys. -/
theorem Linked.key_ne (h : Linked p (n :: nodes)) {level : ScopeLevel}
    (hlevel : level ∈ nodes.map (·.level))
    {v w : String × Datum} (hm : m.level = level) (hv : v ∈ m.values) (hw : w ∈ n.values) :
    w.1 ≠ v.1 := by
  obtain ⟨m', hm', rfl⟩ := List.mem_map.1 hlevel
  intro hkey
  have hlt := h.rank_lt m' hm'
  rw [← rank_eq_of_level hm, ← rankOfKey_eq hv, ← hkey, rankOfKey_eq hw] at hlt
  exact Nat.lt_irrefl _ hlt

end OpenNode

/-- Entering a scope opens a node. -/
theorem Request.Leads.exists_node {p : Plan} {floor : Nat} {level : ScopeLevel}
    {values : List (String × Datum)} {s t : Standing}
    (h : (Request.enter level values).Leads p floor s t) :
    ∃ n : OpenNode, OpenNode.Linked p (n :: s.nodes) ∧ level = n.level ∧ values = n.values := by
  cases h with
  | @enter level values n nodes steered hlevel hvalues hnode => exact ⟨n, hnode, hlevel, hvalues⟩

/-- The values of a node are there as soon as it is entered. -/
theorem PlacedTurn.held_left {e : PlacedTurn W} (r : Runner W) (hsits : e.standing.Sits e.found)
    {n : OpenNode}
    (henter : e.request = .enter n.level n.values) {v : String × Datum} (hv : v ∈ n.values) :
    Context.Held v.1 n.level v.2 (e.depth + 1) (e.left r).layers := by
  have hlength := hsits.length_frames
  rw [Context.frames, List.length_map] at hlength
  have hleft : (e.left r).layers = n.layer :: e.found.layers := by
    rw [Turn.left, henter]
    exact n.layers_enter e.found
  rw [hleft]
  exact .here rfl rfl (OpenNode.find?_layer hv) hlength

namespace Runner.Thread

variable {r : Runner W} {p : Plan} {s t : Standing} {c d : Context} {xs : List (PlacedTurn W)}

/-- As long as the node stays open, the layers hold the value that the runner has stored for it,
but for the changes in place. -/
theorem held (hr : r.Faithful) (h : r.Thread p s c xs t d) (hlinked : OpenNode.Linked p s.nodes)
    (hs : s.Sits c) {n : OpenNode} {v : String × Datum} (hv : v ∈ n.values) {depth : Nat}
    (hpositive : 0 < depth) (hdepth : ∀ x ∈ xs, depth < x.depth) (hend : depth < t.nodes.length)
    (hheld : Context.Held v.1 n.level v.2 (depth + 1) c.layers) :
    Context.Held v.1 n.level (changed v.1 v.2 (xs.flatMap (·.changes r))) (depth + 1)
      d.layers := by
  have hkept := h.preserves (P := fun changes s c => OpenNode.Linked p s.nodes ∧ s.Sits c ∧
    (depth < s.nodes.length →
      Context.Held v.1 n.level (changed v.1 v.2 changes) (depth + 1) c.layers)) ?_ ?_ []
    ⟨hlinked, hs, fun _ => hheld⟩
  · exact hkept.2.2 hend
  · rintro x hx changes s' hleads ⟨hlinked, hsits, hopen⟩
    refine ⟨hleads.linked hlinked, PlacedTurn.sits_left hr hleads hsits, fun hlater => ?_⟩
    have hheld := hopen (hdepth x hx)
    have hleft := PlacedTurn.sits_left hr hleads hsits
    have hsame : x.isPassage = false → Context.Held v.1 n.level
        (changed v.1 v.2 (changes ++ x.changes r)) (depth + 1) (x.left r).layers := fun hpassage =>
      (x.preserves (Context.Held.lasting v.1 n.level v.2 (depth + 1)) hr hpassage changes
        hheld).last
    obtain ⟨⟨stage, request⟩, standing⟩ := x
    cases hleads with
    | @enter level values m nodes steered hlevel hvalues hnode =>
      subst hlevel hvalues
      -- the node with the value is among those around the new one, which has other keys
      have hinside : n.level ∈ nodes.map (·.level) := by
        obtain ⟨l, hl, hlevel⟩ := hheld.exists_level
        have hmem : n.level ∈ stage.context.levels := hlevel ▸ List.mem_map_of_mem hl
        have hlevels : stage.context.levels = nodes.map (·.level) ++ [.root] := hsits
        rw [hlevels, List.mem_append, List.mem_singleton] at hmem
        exact hmem.resolve_right n.level_ne_root
      have hpushed : Context.Held v.1 n.level (changed v.1 v.2 changes) (depth + 1)
          (stage.context.push m.level).layers := .inside rfl hheld
      rw [Turn.changes_of_isPassage rfl, List.append_nil]
      exact hpushed.ownAll fun w hw => hnode.key_ne hinside rfl hv hw
    | @leave m nodes steered hready =>
      -- the layer of the value is not the innermost, since the node is still open afterwards
      have hlength := hleft.length_frames
      rw [Context.frames, List.length_map] at hlength
      rw [Turn.changes_of_isPassage rfl, List.append_nil]
      exact hheld.pop (hlength ▸ Nat.succ_lt_succ hlater)
    | reset | control | isStopped | stop | find | hooks | call => exact hsame rfl
  · rintro changes c ⟨hlinked, hsits, -⟩
    exact ⟨hlinked, hsits.fork, fun hlater => absurd hlater (Nat.not_lt.2 hpositive)⟩

end Runner.Thread

/-- User code has the glance in the scope that the turn opens, after the changes in place that were
asked for in the scope. -/
def Inside (r : Runner W) (xs : List (PlacedTurn W)) (e : PlacedTurn W) (changes : List Change)
    (g : Glance) : Prop :=
  ∃ pre mid x post before after, xs = pre ++ e :: (mid ++ x :: post) ∧
    (∀ z ∈ mid ++ [x], e.depth < z.depth) ∧ x.glances r = before ++ g :: after ∧
    changes = mid.flatMap (·.changes r) ++ changesOf before

/-- The values of the runner stay with it, but for changes in place. -/
structure Owned (r : Runner W) (p : Plan) (xs : List (PlacedTurn W)) : Prop where
  /-- On entering a node its values are stored. -/
  stores : ∀ e ∈ xs, ∀ level values, e.request = .enter level values →
    ∃ n : OpenNode, OpenNode.Linked p (n :: e.standing.nodes) ∧ level = n.level ∧ values = n.values
  /-- In its scope every value is seen as the changes in place have made it. -/
  follows : ∀ e changes g, Inside r xs e changes g →
    ∀ level values, e.request = .enter level values → ∀ v ∈ values,
      g.context.find? v.1 = some (level, ⟨changed v.1 v.2 changes, .runner⟩)
  /-- It is seen unchanged if no change was asked for under its key and for its kind. -/
  unchanged : ∀ e changes g, Inside r xs e changes g →
    ∀ level values, e.request = .enter level values → ∀ v ∈ values,
      (∀ change ∈ changes, change.key = v.1 → v.2.as? change.kind = none) →
        g.context.find? v.1 = some (level, ⟨v.2, .runner⟩)
  /-- Nothing can be stored under its key. -/
  refuses : ∀ e changes g, Inside r xs e changes g →
    ∀ level values, e.request = .enter level values → ∀ v ∈ values, ∀ d,
      g.context.set v.1 d = .error ⟨v.1⟩
  /-- A change in place for a value of another kind is not made. -/
  spares : ∀ e changes g, Inside r xs e changes g →
    ∀ level values, e.request = .enter level values → ∀ v ∈ values,
      ∀ (k : Datum.Kind) (f : k.Carrier → k.Carrier), v.2.as? k = none →
        g.context.update v.1 k f = (g.context, none)

namespace Runner

variable {r : Runner W} {suite : Suite} {world : W} {cancelled : Bool}

/-- What user code sees in the scope of a node holds the values of the node. -/
theorem Thread.held_of_inside (hr : r.Faithful) {p : Plan} {xs : List (PlacedTurn W)}
    {t : Standing} {d : Context} (h : r.Thread p ⟨[], false⟩ .fresh xs t d) {e : PlacedTurn W}
    {changes : List Change}
    {g : Glance} (hinside : Inside r xs e changes g) {level : ScopeLevel}
    {values : List (String × Datum)} (henter : e.request = .enter level values)
    {v : String × Datum} (hv : v ∈ values) :
    Context.Held v.1 level (changed v.1 v.2 changes) (e.depth + 1) g.context.layers := by
  obtain ⟨pre, mid, x, post, before, after, hxs, hdepth, hglances, rfl⟩ := hinside
  obtain ⟨hlinked, hsits, s', hleads, hafter⟩ := h.turn hr hxs
  obtain ⟨hmid, -⟩ := hafter.split
  have hlater : ∀ z ∈ mid, e.depth < z.depth := fun z hz => hdepth z (List.mem_append_left _ hz)
  have hx : e.depth < x.depth := hdepth x (List.mem_append_right _ List.mem_cons_self)
  have hopens := hleads
  rw [henter] at hopens
  obtain ⟨n, hnode, rfl, rfl⟩ := hopens.exists_node
  have hfound := hmid.held hr (hleads.linked hlinked) (PlacedTurn.sits_left hr hleads hsits) hv
    (hnode.length_pos hv) hlater hx (PlacedTurn.held_left r hsits henter hv)
  cases hpassage : x.isPassage with
  | true =>
    rw [Turn.glances_of_isPassage hpassage] at hglances
    rcases List.singleton_eq_append_iff.1 hglances with ⟨rfl, hg⟩ | ⟨-, hg⟩
    · cases hg
      rw [changesOf_nil, List.append_nil]
      exact hfound
    · cases hg
  | false =>
    exact (x.preserves (r := r) (Context.Held.lasting v.1 n.level v.2 (e.depth + 1)) hr hpassage
      (mid.flatMap (·.changes r)) hfound).each hglances

theorem Thread.owned (hr : r.Faithful) {p : Plan} {xs : List (PlacedTurn W)} {t : Standing}
    {d : Context} (h : r.Thread p ⟨[], false⟩ .fresh xs t d) : Owned r p xs where
  stores e he level values henter := by
    obtain ⟨-, -, s', hleads⟩ := h.turn_of_mem hr he
    rw [henter] at hleads
    exact hleads.exists_node
  follows e changes g hinside level values henter v hv :=
    (h.held_of_inside hr hinside henter hv).findIn_eq
  unchanged e changes g hinside level values henter v hv hother := by
    have hfound := (h.held_of_inside hr hinside henter hv).findIn_eq
    rwa [changed_eq_self hother] at hfound
  refuses e changes g hinside level values henter v hv d' :=
    (h.held_of_inside hr hinside henter hv).set_eq d'
  spares e changes g hinside level values henter v hv k f hkind := by
    refine (h.held_of_inside hr hinside henter hv).update_eq f ?_
    rw [← Option.not_isSome_iff_eq_none, isSome_as?_changed, hkind]
    exact Bool.false_ne_true

/-- On every context of a run whose user code goes to the context through its methods, the values of
the runner stay with it, but for changes in place. -/
theorem values_owned (r : Runner W) (hr : r.Faithful) (suite : Suite) (world : W) (cancelled : Bool)
    {xs : List (Turn W)} (h : r.Trails suite world cancelled xs) :
    ∃ ys : List (PlacedTurn W), ys.map (·.toTurn) = xs ∧ Owned r (r.options.plan suite) ys := by
  obtain ⟨ys, t, d, hys, hthread, -⟩ := h.exists_thread
  exact ⟨ys, hys, hthread.owned hr⟩

/-- A hook stores a value of its own next to those of the runner. -/
theorem values_owned_single :
    let r := ofHooks ⟨[⟨.beforeScenario, fun _ => .set "count" (.int 1) fun _ => .done .ok⟩]⟩
    let suite := Suite.single (.named "scenario")
    let xs := r.trail (r.options.runPlan (r.options.plan suite)) (.start () false)
    r.Faithful ∧ r.Trails suite () false xs ∧
      ∃ ys : List (PlacedTurn Unit), ys.map (·.toTurn) = xs ∧
        Owned r (r.options.plan suite) ys := by
  intro r suite xs
  have hr : r.Faithful := faithful_ofHooks fun hook hmem event => by
    obtain rfl := List.mem_singleton.1 hmem
    exact fun _ => trivial
  have h : r.Trails suite () false xs := .inOrder (by decide)
  exact ⟨hr, h, r.values_owned hr suite () false h⟩

/-- A hook before a feature changes the name of the feature in place, and the hook before its
scenario sees the changed name. -/
theorem feature_changed_in_place :
    let r := ofHooks ⟨[
      ⟨.beforeFeature, fun _ => .update "feature" .text (fun s : String => s ++ "!") fun _ =>
        .done .ok⟩,
      ⟨.beforeScenario, fun _ => .look fun v =>
        .done (if (v.find? "feature").any (·.2.datum == .text "feature") then .ok
          else .error "changed" false)⟩]⟩
    let suite := Suite.single (.named "scenario")
    let past := (r.run suite () false).stage.past
    suite.violation? = none ∧
      (past.any fun d => match d.request with
        | .enter .feature values => values == [("feature", .text "feature")]
        | _ => false) = true ∧
      (past.any fun d => match d.exchange with
        | ⟨.hooks event, reply⟩ => event.point == .beforeScenario &&
          d.found.find? "feature" == some (.feature, ⟨.text "feature!", .runner⟩) &&
          reply.outcomes == [.error "changed" false]
        | _ => false) = true := by
  decide

end Runner

end Rehearsal
