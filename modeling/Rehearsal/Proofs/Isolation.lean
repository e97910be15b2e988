import Rehearsal.Proofs.Account.Run
import Rehearsal.Proofs.Parallel.Solo
import Rehearsal.Proofs.Thread

/-!
# Scopes keep to themselves

A frame is what a layer of the context holds apart from the values: its level, and its keys with
their owners. User code gives the innermost frame more keys and leaves the others alone (`Grows`),
opening a scope puts a frame with the keys of the runner on top, and closing it takes that frame
away again, so every turn of a thread moves the frames in one of three ways (`PlacedTurn.moves`).

`Isolated` collects what follows for a thread of a run: whatever is called finds exactly the scopes
of the open nodes, a key lives as long as the scope in which it was stored, and an attempt at a
scenario begins with the switches that are planned for it.
-/

namespace Rehearsal

/-- What a layer holds apart from the values. -/
structure Frame where
  level : ScopeLevel
  keys : List (String × Owner)
  deriving DecidableEq, Repr

def Layer.frame (l : Layer) : Frame := ⟨l.level, l.values.map fun v => (v.1, v.2.owner)⟩

namespace Layer

theorem lookup_map_owner (values : List (String × Stored)) (key : String) :
    (values.map fun v => (v.1, v.2.owner)).lookup key = (values.lookup key).map (·.owner) := by
  induction values with
  | nil => rfl
  | cons v rest ih =>
    rw [List.map_cons, List.lookup_cons, List.lookup_cons, ih]
    cases key == v.1 <;> rfl

theorem lookup_frame (l : Layer) (key : String) :
    l.frame.keys.lookup key = (l.find? key).map (·.owner) :=
  lookup_map_owner l.values key

theorem putValue_of_none {key : String} {values : List (String × Stored)}
    (h : values.lookup key = none) (s : Stored) : putValue key s values = values ++ [(key, s)] := by
  induction values with
  | nil => rfl
  | cons v rest ih =>
    rw [List.lookup_cons] at h
    cases hv : key == v.1 with
    | true => simp [hv] at h
    | false =>
      rw [hv] at h
      have hne : v.1 ≠ key := fun heq => by simp [heq] at hv
      rw [putValue, if_neg hne, ih h, List.cons_append]

theorem map_putValue_of_some {key : String} {values : List (String × Stored)} {old s : Stored}
    (h : values.lookup key = some old) (howner : s.owner = old.owner) :
    (putValue key s values).map (fun v => (v.1, v.2.owner)) =
      values.map fun v => (v.1, v.2.owner) := by
  induction values with
  | nil => cases h
  | cons v rest ih =>
    rw [List.lookup_cons] at h
    cases hv : key == v.1 with
    | true =>
      rw [hv, Option.some.injEq] at h
      have heq : v.1 = key := (beq_iff_eq.1 hv).symm
      rw [putValue, if_pos heq, List.map_cons, List.map_cons, howner, ← h, heq]
    | false =>
      rw [hv] at h
      have hne : v.1 ≠ key := fun heq => by simp [heq] at hv
      rw [putValue, if_neg hne, List.map_cons, List.map_cons, ih h]

/-- A new key comes last. -/
theorem frame_put_of_none {l : Layer} {key : String} (h : l.find? key = none) (s : Stored) :
    (l.put key s).frame = ⟨l.level, l.frame.keys ++ [(key, s.owner)]⟩ := by
  rw [frame, put, putValue_of_none h, List.map_append]
  rfl

/-- A value may be replaced by another one of its owner. -/
theorem frame_put_of_some {l : Layer} {key : String} {old s : Stored} (h : l.find? key = some old)
    (howner : s.owner = old.owner) : (l.put key s).frame = l.frame :=
  congrArg (Frame.mk l.level) (map_putValue_of_some h howner)

end Layer

/-- The frames are the same, except that the innermost may have got more keys of user code. -/
inductive Grows : List Frame → List Frame → Prop
  | refl (fs : List Frame) : Grows fs fs
  | more {level : ScopeLevel} {keys : List (String × Owner)} {fs : List Frame}
      (news : List String) :
      Grows (⟨level, keys⟩ :: fs) (⟨level, keys ++ news.map fun key => (key, .user)⟩ :: fs)

namespace Grows

variable {fs gs hs : List Frame}

theorem trans (h : Grows fs gs) (h' : Grows gs hs) : Grows fs hs := by
  cases h with
  | refl => exact h'
  | more first =>
    cases h' with
    | refl => exact .more first
    | more second =>
      rw [List.append_assoc, ← List.map_append]
      exact .more (first ++ second)

theorem levels_eq (h : Grows fs gs) : gs.map (·.level) = fs.map (·.level) := by
  cases h <;> rfl

theorem length_eq (h : Grows fs gs) : gs.length = fs.length := by
  cases h <;> rfl

/-- The inner ones of the frames may be left out on both sides. -/
theorem suffix (h : Grows fs gs) {outer : List Frame} (houter : outer <:+ fs) :
    ∃ outer', Grows outer outer' ∧ outer' <:+ gs := by
  cases h with
  | refl => exact ⟨outer, .refl _, houter⟩
  | @more level keys fs news =>
    rcases List.suffix_cons_iff.1 houter with rfl | hsuffix
    · exact ⟨_, .more news, List.suffix_rfl⟩
    · exact ⟨outer, .refl _, List.suffix_cons_iff.2 (.inr hsuffix)⟩

/-- Frames further out are not affected. -/
theorem suffix_of_lt (h : Grows fs gs) {outer : List Frame} (houter : outer <:+ fs)
    (hlt : outer.length < fs.length) : outer <:+ gs := by
  cases h with
  | refl => exact houter
  | @more level keys fs news =>
    rcases List.suffix_cons_iff.1 houter with rfl | hsuffix
    · exact absurd hlt (Nat.lt_irrefl _)
    · exact List.suffix_cons_iff.2 (.inr hsuffix)

end Grows

/-- A list that is not longer than the tail ends the tail if it ends the whole. -/
theorem suffix_of_suffix_cons {x : α} {xs ys : List α} (h : ys <:+ x :: xs)
    (hlength : ys.length ≤ xs.length) : ys <:+ xs := by
  rcases List.suffix_cons_iff.1 h with rfl | hsuffix
  · exact absurd hlength (Nat.not_succ_le_self _)
  · exact hsuffix

namespace Context

def frames (c : Context) : List Frame := c.layers.map Layer.frame

theorem levels_eq_frames (c : Context) : c.levels = c.frames.map (·.level) := by
  rw [levels, frames, List.map_map]
  rfl

theorem keys_eq_frames (c : Context) :
    c.keys = Text.sorted (c.frames.flatMap fun f => f.keys.map (·.1)) := by
  rw [keys, frames, List.flatMap_map]
  simp [Layer.frame, Function.comp_def]

theorem frames_fork (c : Context) : c.fork.frames = c.frames := by
  rw [frames, fork, List.map_map]
  rfl

theorem frames_pop {c : Context} {f : Frame} {fs : List Frame} (h : c.frames = f :: fs)
    (hne : fs ≠ []) : c.pop.frames = fs := by
  obtain ⟨l, ls, hlayers, -, rfl⟩ := List.map_eq_cons_iff.1 h
  have hls : ls ≠ [] := by
    rintro rfl
    exact hne rfl
  rw [layers_pop hlayers hls]
  rfl

theorem grows_set {c c' : Context} {key : String} {d : Datum} (h : c.set key d = .ok c') :
    Grows c.frames c'.frames := by
  obtain rfl := eq_store_of_set h
  obtain ⟨layers, output, control⟩ := c
  cases layers with
  | nil => exact .refl _
  | cons l rest =>
    cases hl : l.find? key with
    | none =>
      have hframes : (store ⟨l :: rest, output, control⟩ key ⟨d, .user⟩).frames =
          ⟨l.level, l.frame.keys ++ [(key, .user)]⟩ :: rest.map Layer.frame :=
        congrArg (· :: _) (Layer.frame_put_of_none hl _)
      rw [hframes]
      exact .more [key]
    | some old =>
      have hfound : find? ⟨l :: rest, output, control⟩ key = some (l.level, old) := by
        simp [find?, findIn, hl]
      have howner : old.owner = .user := by
        obtain ⟨datum, owner⟩ := old
        cases owner with
        | user => rfl
        | runner => simp [set, hfound] at h
      have hframes : (store ⟨l :: rest, output, control⟩ key ⟨d, .user⟩).frames =
          frames ⟨l :: rest, output, control⟩ :=
        congrArg (· :: _) (Layer.frame_put_of_some hl howner.symm)
      rw [hframes]
      exact .refl _

theorem map_frame_updateIn {key : String} {k : Datum.Kind} {f : k.Carrier → k.Carrier}
    {ls ls' : List Layer} {x : k.Carrier} (h : updateIn key k f ls = some (ls', x)) :
    ls'.map Layer.frame = ls.map Layer.frame := by
  induction ls generalizing ls' with
  | nil => cases h
  | cons l rest ih =>
    unfold updateIn at h
    split at h
    · rename_i s hs
      split at h
      · cases h
      · split at h
        · cases h
          exact congrArg (· :: _) (Layer.frame_put_of_some hs rfl)
        · cases h
    · obtain ⟨⟨rest', x'⟩, hrest, heq⟩ := Option.map_eq_some_iff.1 h
      cases heq
      exact congrArg (_ :: ·) (ih hrest)

theorem frames_update (c : Context) (key : String) (k : Datum.Kind)
    (f : k.Carrier → k.Carrier) : (c.update key k f).1.frames = c.frames := by
  unfold update
  split
  · rename_i ls' x h
    exact map_frame_updateIn h
  · rfl

theorem lasting_grows (fs : List Frame) : Lasting fun _ c => Grows fs c.frames where
  set _ _ _ _ _ h hset := h.trans (grows_set hset)
  update _ _ change h := by
    rwa [frames_update]
  layers _ _ _ h hlayers := by
    rwa [frames, hlayers]

end Context

/-- The frame that the runner makes when it enters the node. -/
def OpenNode.frame (n : OpenNode) : Frame := ⟨n.level, n.values.map fun v => (v.1, .runner)⟩

theorem OpenNode.frames_enter (n : OpenNode) (c : Context) :
    ((c.push n.level).ownAll n.values).frames = n.frame :: c.frames := by
  cases n <;> rfl

/-- The levels of the context are those of the open nodes, with the root below them. -/
def Standing.Sits (s : Standing) (c : Context) : Prop :=
  c.levels = s.nodes.map (·.level) ++ [.root]

namespace Standing.Sits

variable {s : Standing} {c : Context}

theorem levels_frames (h : s.Sits c) :
    c.frames.map (·.level) = s.nodes.map (·.level) ++ [.root] := by
  rw [← c.levels_eq_frames]
  exact h

theorem length_frames (h : s.Sits c) : c.frames.length = s.nodes.length + 1 := by
  simpa using congrArg List.length h.levels_frames

theorem of_levels_frames (h : c.frames.map (·.level) = s.nodes.map (·.level) ++ [.root]) :
    s.Sits c := by
  rw [Sits, c.levels_eq_frames]
  exact h

theorem fork (h : s.Sits c) : s.Sits c.fork := by
  refine .of_levels_frames ?_
  rw [Context.frames_fork]
  exact h.levels_frames

end Standing.Sits

namespace PlacedTurn

variable {r : Runner W} {p : Plan} {x : PlacedTurn W} {s' : Standing}

theorem rests (h : x.request.Leads p 0 x.standing s') (hx : x.isPassage = false) :
    s'.nodes = x.standing.nodes := by
  obtain ⟨⟨stage, request⟩, standing⟩ := x
  cases h with
  | enter | leave => cases hx
  | reset | control | isStopped | stop | find | hooks | call => rfl

variable (hr : r.Faithful)
include hr

theorem grows_left (hx : x.isPassage = false) : Grows x.found.frames (x.left r).frames :=
  (x.preserves (Context.lasting_grows _) hr hx [] (.refl _)).last

theorem grows_glances {g : Glance} (hg : g ∈ x.glances r) :
    Grows x.found.frames g.context.frames := by
  cases hx : x.isPassage with
  | false =>
    obtain ⟨-, h⟩ := (x.preserves (Context.lasting_grows _) hr hx [] (.refl _)).of_mem hg
    exact h
  | true =>
    rw [Turn.glances_of_isPassage hx, List.mem_singleton] at hg
    rw [hg]
    exact .refl _

/-- What user code sees later in a turn, and what the turn leaves, comes from what it sees. -/
theorem pairwise_grows (hx : x.isPassage = false) :
    (x.glances r).Pairwise (fun g g' => Grows g.context.frames g'.context.frames) ∧
      ∀ g ∈ x.glances r, Grows g.context.frames (x.left r).frames := by
  have hpairwise := x.pairwise_glances (R := fun c d => Grows c.frames d.frames)
    (fun c => Context.lasting_grows c.frames) (fun c => .refl c.frames) hr hx
  rw [List.pairwise_append, List.pairwise_map] at hpairwise
  exact ⟨hpairwise.1, fun g hg => hpairwise.2.2 _ (List.mem_map_of_mem hg) _ List.mem_cons_self⟩

theorem grows_frames :
    (x.glances r).Pairwise fun g g' => Grows g.context.frames g'.context.frames := by
  cases hx : x.isPassage with
  | true =>
    rw [Turn.glances_of_isPassage hx]
    exact List.pairwise_singleton _ _
  | false => exact (pairwise_grows hr hx).1

/-- A turn opens a scope, closes the innermost one, or leaves the scopes as they are and at most
adds keys of user code to the innermost one. -/
theorem moves (h : x.request.Leads p 0 x.standing s') (hsits : x.standing.Sits x.found) :
    (∃ n, x.request = .enter n.level n.values ∧ s'.nodes = n :: x.standing.nodes ∧
      (x.left r).frames = n.frame :: x.found.frames) ∨
    (∃ n f, x.request = .leave ∧ x.standing.nodes = n :: s'.nodes ∧
      x.found.frames = f :: (x.left r).frames) ∨
    (x.isPassage = false ∧ s'.nodes = x.standing.nodes ∧
      Grows x.found.frames (x.left r).frames) := by
  have hsame : x.isPassage = false → s'.nodes = x.standing.nodes →
      (x.isPassage = false ∧ s'.nodes = x.standing.nodes ∧
        Grows x.found.frames (x.left r).frames) := fun hx hnodes => ⟨hx, hnodes, grows_left hr hx⟩
  obtain ⟨⟨stage, request⟩, standing⟩ := x
  cases h with
  | @enter level values n nodes steered hlevel hvalues hlinked =>
    subst hlevel hvalues
    exact .inl ⟨n, rfl, rfl, n.frames_enter stage.context⟩
  | @leave n nodes steered hready =>
    obtain ⟨f, fs, hframes, -, hfs⟩ := List.map_eq_cons_iff.1 hsits.levels_frames
    have hne : fs ≠ [] := by
      rintro rfl
      simp at hfs
    refine .inr (.inl ⟨n, f, rfl, rfl, ?_⟩)
    exact hframes.trans (congrArg (f :: ·) (Context.frames_pop hframes hne).symm)
  | reset | control | isStopped | stop | find | hooks | call => exact .inr (.inr (hsame rfl rfl))

theorem opens (h : x.request.Leads p 0 x.standing s') (hsits : x.standing.Sits x.found)
    {level : ScopeLevel} {values : List (String × Datum)}
    (henter : x.request = .enter level values) :
    ∃ n : OpenNode, level = n.level ∧ values = n.values ∧ s'.nodes = n :: x.standing.nodes ∧
      (x.left r).frames = n.frame :: x.found.frames := by
  rcases moves hr h hsits with ⟨n, hrequest, hnodes, hframes⟩ | ⟨n, f, hleave, -⟩ | ⟨hx, -⟩
  · rw [henter, Request.enter.injEq] at hrequest
    exact ⟨n, hrequest.1, hrequest.2, hnodes, hframes⟩
  · rw [hleave] at henter
    cases henter
  · simp [Turn.isPassage, henter] at hx

theorem closes (h : x.request.Leads p 0 x.standing s') (hsits : x.standing.Sits x.found)
    (hleave : x.request = .leave) :
    s'.nodes = x.standing.nodes.tail ∧ (x.left r).frames = x.found.frames.tail := by
  rcases moves hr h hsits with ⟨n, henter, -⟩ | ⟨n, f, -, hnodes, hframes⟩ | ⟨hx, -⟩
  · rw [hleave] at henter
    cases henter
  · rw [hnodes, hframes]
    exact ⟨rfl, rfl⟩
  · simp [Turn.isPassage, hleave] at hx

theorem sits_left (h : x.request.Leads p 0 x.standing s') (hsits : x.standing.Sits x.found) :
    s'.Sits (x.left r) := by
  refine .of_levels_frames ?_
  rcases moves hr h hsits with ⟨n, -, hnodes, hframes⟩ | ⟨n, f, -, hnodes, hframes⟩ |
    ⟨-, hnodes, hgrows⟩
  · rw [hframes, hnodes, List.map_cons, hsits.levels_frames]
    rfl
  · have hlevels := hsits.levels_frames
    rw [hframes, hnodes] at hlevels
    exact (List.cons.inj hlevels).2
  · rw [hgrows.levels_eq, hnodes]
    exact hsits.levels_frames

end PlacedTurn

namespace Runner.Thread

variable {r : Runner W} {p : Plan} {s t : Standing} {c d : Context} {xs : List (PlacedTurn W)}
  (hr : r.Faithful)
include hr

theorem sits (h : r.Thread p s c xs t d) (hs : s.Sits c) : t.Sits d :=
  h.preserves (P := fun _ s c => s.Sits c)
    (fun _ _ _ _ hleads hsits => PlacedTurn.sits_left hr hleads hsits)
    (fun _ _ hsits => hsits.fork) [] hs

/-- As long as the outermost nodes stay open, they stay the same, and of their frames only the
innermost may grow. -/
theorem keeps {ns : List OpenNode} {fs : List Frame} (h : r.Thread p s c xs t d) (hs : s.Sits c)
    (hlength : fs.length = ns.length + 1) (hdepth : ∀ x ∈ xs, ns.length ≤ x.depth)
    (hend : ns.length ≤ t.nodes.length) (hns : ns <:+ s.nodes) (hfs : fs <:+ c.frames) :
    ns <:+ t.nodes ∧ ∃ gs, Grows fs gs ∧ gs <:+ d.frames := by
  -- nothing is said of a standing in which one of the nodes is closed; `hdepth` and `hend` say that
  -- there is none
  have hkeeps := h.preserves (P := fun _ s c => s.Sits c ∧ (ns.length ≤ s.nodes.length →
      ns <:+ s.nodes ∧ ∃ gs, Grows fs gs ∧ gs <:+ c.frames)) ?_ ?_ []
    ⟨hs, fun _ => ⟨hns, fs, .refl fs, hfs⟩⟩
  · exact hkeeps.2 hend
  · rintro x hx - s' hleads ⟨hsits, hopen⟩
    refine ⟨PlacedTurn.sits_left hr hleads hsits, fun hlater => ?_⟩
    obtain ⟨hns, gs, hgrows, hgs⟩ := hopen (hdepth x hx)
    rcases PlacedTurn.moves hr hleads hsits with ⟨n, -, hnodes, hframes⟩ |
      ⟨n, f, -, hnodes, hframes⟩ | ⟨-, hnodes, hmore⟩
    · rw [hnodes, hframes]
      exact ⟨List.suffix_cons_iff.2 (.inr hns), gs, hgrows, List.suffix_cons_iff.2 (.inr hgs)⟩
    · rw [hnodes] at hns
      rw [hframes] at hgs
      have hleft := (PlacedTurn.sits_left hr hleads hsits).length_frames
      refine ⟨suffix_of_suffix_cons hns hlater, gs, hgrows, suffix_of_suffix_cons hgs ?_⟩
      rw [hgrows.length_eq, hlength, hleft]
      exact Nat.succ_le_succ hlater
    · obtain ⟨gs', hgrows', hgs'⟩ := hmore.suffix hgs
      rw [hnodes]
      exact ⟨hns, gs', hgrows.trans hgrows', hgs'⟩
  · rintro - c ⟨hsits, hopen⟩
    rw [Context.frames_fork]
    exact ⟨hsits.fork, hopen⟩

/-- As long as a further node is open inside them, the outermost frames are not changed at all. -/
theorem guards {ns : List OpenNode} {fs : List Frame} (h : r.Thread p s c xs t d) (hs : s.Sits c)
    (hlength : fs.length = ns.length + 1) (hdepth : ∀ x ∈ xs, ns.length < x.depth)
    (hns : ns <:+ s.nodes) (hfs : fs <:+ c.frames) : ns <:+ t.nodes ∧ fs <:+ d.frames := by
  have hguards := h.preserves (P := fun _ s c => s.Sits c ∧ ns <:+ s.nodes ∧ fs <:+ c.frames) ?_ ?_
    [] ⟨hs, hns, hfs⟩
  · exact hguards.2
  · rintro x hx - s' hleads ⟨hsits, hns, hfs⟩
    have hinside := hdepth x hx
    have hleft := PlacedTurn.sits_left hr hleads hsits
    refine ⟨hleft, ?_⟩
    rcases PlacedTurn.moves hr hleads hsits with ⟨n, -, hnodes, hframes⟩ |
      ⟨n, f, -, hnodes, hframes⟩ | ⟨-, hnodes, hmore⟩
    · rw [hnodes, hframes]
      exact ⟨List.suffix_cons_iff.2 (.inr hns), List.suffix_cons_iff.2 (.inr hfs)⟩
    · -- the scope that is closed lies inside all the nodes
      rw [PlacedTurn.depth, hnodes, List.length_cons, Nat.lt_succ_iff] at hinside
      rw [hnodes] at hns
      rw [hframes] at hfs
      refine ⟨suffix_of_suffix_cons hns hinside, suffix_of_suffix_cons hfs ?_⟩
      rw [hlength, hleft.length_frames]
      exact Nat.succ_le_succ hinside
    · rw [hnodes]
      refine ⟨hns, hmore.suffix_of_lt hfs ?_⟩
      rw [hlength, hsits.length_frames]
      exact Nat.succ_lt_succ hinside
  · rintro - c ⟨hsits, hns, hfs⟩
    rw [Context.frames_fork]
    exact ⟨hsits.fork, hns, hfs⟩

end Runner.Thread

/-- In a scenario that was just entered nothing is asked but to set the switches as planned. -/
theorem Request.Leads.reset_of_unsteered {p : Plan} {floor : Nat} {request : Request}
    {q : PlannedScenario} {nodes : List OpenNode} {t : Standing}
    (h : request.Leads p floor ⟨.scenario q :: nodes, false⟩ t) :
    request = .reset q.continueAfterFailure ∧ t = ⟨.scenario q :: nodes, true⟩ := by
  have hnot : ∀ {n : OpenNode}, ¬ Standing.Ready floor n ⟨.scenario q :: nodes, false⟩ := by
    rintro n ⟨⟨nodes', hnodes, -⟩, hsteered⟩
    cases hnodes
    exact Bool.noConfusion (hsteered rfl)
  have hunsteady : ¬ Standing.Steady ⟨.scenario q :: nodes, false⟩ := fun hsteady =>
    Bool.noConfusion (hsteady (.scenario q) rfl rfl)
  cases h with
  | enter hlevel hvalues hlinked => exact hlinked.1.elim
  | leave hready => exact absurd hready hnot
  | reset hon => exact ⟨congrArg Request.reset hon, rfl⟩
  | control hready => exact absurd hready hnot
  | isStopped hsteady => exact absurd hsteady hunsteady
  | stop hsteady => exact absurd hsteady hunsteady
  | find hready => exact absurd hready hnot
  | hooks hready => exact absurd hready hnot
  | call hready => exact absurd hready hnot

/-- A thread in a scenario goes on. -/
theorem Runner.Thread.exists_next {r : Runner W} {p : Plan} {s t : Standing} {c d : Context}
    {xs : List (PlacedTurn W)} (h : r.Thread p s c xs t d) (hs : OpenNode.Linked p s.nodes)
    {q : PlannedScenario} {nodes : List OpenNode} (hnodes : s.nodes = .scenario q :: nodes)
    (hend : t.nodes.length ≤ 1) :
    ∃ x ys s', xs = x :: ys ∧ x.standing = s ∧ x.found = c ∧ x.request.Leads p 0 s s' ∧
      r.Thread p s' (x.left r) ys t d := by
  cases xs with
  | nil =>
    obtain ⟨rfl, -⟩ := h.eq_of_nil
    rw [hnodes] at hs hend
    obtain rfl := List.length_eq_zero_iff.1 (Nat.le_zero.1 (Nat.le_of_succ_le_succ hend))
    have hsuite : OpenNode.scenario q = .suite p := hs
    cases hsuite
  | cons x ys =>
    have hsplit : r.Thread p s c ([] ++ x :: ys) t d := h
    obtain ⟨hbefore, s', hleads, hafter⟩ := hsplit.split
    obtain ⟨hstanding, hfound⟩ := hbefore.eq_of_nil
    have hne : s ≠ ⟨[.suite p], false⟩ := by
      rintro rfl
      cases hnodes
    rw [hstanding] at hleads
    exact ⟨x, ys, s', rfl, hstanding, hfound hne, hleads, hafter⟩

/-- The turn `y` comes after `x`, and all the while the scopes stay open that are open in `x`. -/
def Remains (xs : List (PlacedTurn W)) (x y : PlacedTurn W) : Prop :=
  ∃ pre mid post, xs = pre ++ x :: (mid ++ y :: post) ∧ ∀ z ∈ mid ++ [y], x.depth ≤ z.depth

theorem Remains.mem {xs : List (PlacedTurn W)} {x y : PlacedTurn W} (h : Remains xs x y) :
    x ∈ xs ∧ y ∈ xs := by
  obtain ⟨pre, mid, post, rfl, -⟩ := h
  simp

/-- The scope that `x` opens is closed again, and `y` is the first turn after it. -/
def Closes (xs : List (PlacedTurn W)) (x y : PlacedTurn W) : Prop :=
  (∃ level values, x.request = .enter level values) ∧
    ∃ pre mid post, xs = pre ++ x :: (mid ++ y :: post) ∧ (∀ z ∈ mid, x.depth < z.depth) ∧
      y.depth ≤ x.depth

/-- On the thread every scope keeps to itself. -/
structure Isolated (r : Runner W) (p : Plan) (xs : List (PlacedTurn W)) : Prop where
  first : ∀ x ∈ xs.head?, x.standing.nodes = []
  linked : ∀ x ∈ xs, OpenNode.Linked p x.standing.nodes
  hooks : ∀ x ∈ xs, ∀ event, x.request = .hooks event →
    ∃ n ∈ x.standing.nodes.head?, n.Hears event.scope
  calls : ∀ x ∈ xs, ∀ m step, x.request = .call m step →
    ∃ q, x.standing.nodes.head? = some (.scenario q)
  /-- Whatever user code sees are the scopes of the open nodes, and the root. -/
  levels : ∀ x ∈ xs, ∀ g ∈ x.glances r,
    g.context.levels = x.standing.nodes.map (·.level) ++ [.root]
  /-- A scope begins with the keys of the runner and no others. -/
  begins : ∀ pre x y post, xs = pre ++ x :: y :: post → ∀ level values,
    x.request = .enter level values → ∃ n : OpenNode, level = n.level ∧ values = n.values ∧
      y.standing.nodes = n :: x.standing.nodes ∧ y.found.frames = n.frame :: x.found.frames
  /-- Leaving a scope takes its frame away. -/
  leaves : ∀ pre x y post, xs = pre ++ x :: y :: post → x.request = .leave →
    y.standing.nodes = x.standing.nodes.tail ∧ y.found.frames = x.found.frames.tail
  /-- Nothing else opens or closes a node. -/
  rests : ∀ pre x y post, xs = pre ++ x :: y :: post → x.isPassage = false →
    y.standing.nodes = x.standing.nodes
  /-- While user code is called, the innermost frame may get more keys. -/
  grows : ∀ x ∈ xs, (x.glances r).Pairwise fun g g' => Grows g.context.frames g'.context.frames
  /-- Frames stay as long as their scopes are open, but for more keys in the innermost one. -/
  keeps : ∀ x y, Remains xs x y → x.standing.nodes <:+ y.standing.nodes ∧
    ∀ g ∈ x.glances r, ∀ g' ∈ y.glances r,
      ∃ fs, Grows g.context.frames fs ∧ fs <:+ g'.context.frames
  /-- So a key of the innermost scope stays visible in later turns, unless a scope further in has
  it, too. -/
  visible : ∀ x y, Remains xs x y → ∀ g ∈ x.glances r, ∀ g' ∈ y.glances r,
    ∀ l ∈ g.context.layers.head?, ∀ key s, l.find? key = some s →
      ∃ s', s'.owner = s.owner ∧ g'.context.find? key =
        (Context.findIn key (g'.context.layers.take (y.depth - x.depth))).or (some (l.level, s'))
  /-- What user code was told is stored is there at its next glance, in the innermost scope. -/
  stores : ∀ x ∈ xs, Answered (x.glances r)
  /-- What is in the innermost scope is visible to the calls that are still to come in the turn. -/
  shows : ∀ x ∈ xs, (x.glances r).Pairwise fun g g' =>
    ∀ l ∈ g.context.layers.head?, ∀ key s, l.find? key = some s →
      ∃ s', s'.owner = s.owner ∧ g'.context.find? key = some (l.level, s')
  /-- When a scope has ended, the nodes and frames are those at its beginning. -/
  ends : ∀ x y, Closes xs x y → y.standing.nodes = x.standing.nodes ∧
    y.found.frames = x.found.frames ∧ y.found.keys = x.found.keys
  /-- An attempt at a scenario begins with the switches planned for it. -/
  steers : ∀ pre x post, xs = pre ++ x :: post → ∀ values, x.request = .enter .scenario values →
    ∃ q y z later, post = y :: z :: later ∧ y.standing.nodes.head? = some (.scenario q) ∧
      y.request = .reset q.continueAfterFailure ∧
      z.found.control = ⟨none, q.continueAfterFailure⟩

namespace Runner.Thread

variable {r : Runner W} {p : Plan} {t : Standing} {d : Context} {xs : List (PlacedTurn W)}

/-- A thread in which nothing is asked leaves the frames as they are. -/
theorem frames_of_nil {s : Standing} {c : Context} (h : r.Thread p s c [] t d) :
    d.frames = c.frames :=
  h.preserves (P := fun _ _ c' => c'.frames = c.frames) (fun _ hx => absurd hx List.not_mem_nil)
    (fun _ c' hc' => c'.frames_fork.trans hc') [] rfl

variable (hr : r.Faithful)
include hr

/-- A turn of a thread from the beginning of a run on. -/
theorem turn (h : r.Thread p ⟨[], false⟩ .fresh xs t d) {pre post : List (PlacedTurn W)}
    {x : PlacedTurn W} (hxs : xs = pre ++ x :: post) :
    OpenNode.Linked p x.standing.nodes ∧ x.standing.Sits x.found ∧
      ∃ s', x.request.Leads p 0 x.standing s' ∧ r.Thread p s' (x.left r) post t d := by
  subst hxs
  obtain ⟨hbefore, hafter⟩ := h.split
  exact ⟨hbefore.linked trivial, hbefore.sits hr rfl, hafter⟩

/-- A turn of a thread, and the one after it. -/
theorem next (h : r.Thread p ⟨[], false⟩ .fresh xs t d) {pre post : List (PlacedTurn W)}
    {x y : PlacedTurn W} (hxs : xs = pre ++ x :: y :: post) :
    x.standing.Sits x.found ∧ x.request.Leads p 0 x.standing y.standing ∧
      y.found.frames = (x.left r).frames := by
  obtain ⟨-, hsits, s', hleads, hafter⟩ := h.turn hr hxs
  have hsplit : r.Thread p s' (x.left r) ([] ++ y :: post) t d := hafter
  obtain ⟨hbetween, -⟩ := hsplit.split
  rw [← hbetween.eq_of_nil.1] at hleads
  exact ⟨hsits, hleads, hbetween.frames_of_nil⟩

theorem turn_of_mem (h : r.Thread p ⟨[], false⟩ .fresh xs t d) {x : PlacedTurn W} (hx : x ∈ xs) :
    OpenNode.Linked p x.standing.nodes ∧ x.standing.Sits x.found ∧
      ∃ s', x.request.Leads p 0 x.standing s' := by
  obtain ⟨pre, post, hxs⟩ := List.append_of_mem hx
  obtain ⟨hlinked, hsits, s', hleads, -⟩ := h.turn hr hxs
  exact ⟨hlinked, hsits, s', hleads⟩

/-- From what user code sees in one turn to what a later turn finds while the scopes stay open. -/
theorem grows_of_remains (h : r.Thread p ⟨[], false⟩ .fresh xs t d) {x y : PlacedTurn W}
    (hxy : Remains xs x y) : x.standing.nodes <:+ y.standing.nodes ∧
      ∀ g ∈ x.glances r, ∃ fs, Grows g.context.frames fs ∧ fs <:+ y.found.frames := by
  obtain ⟨pre, mid, post, hxs, hdepth⟩ := hxy
  obtain ⟨-, hsits, s', hleads, hafter⟩ := h.turn hr hxs
  obtain ⟨hmid, -⟩ := hafter.split
  have hlater : ∀ z ∈ mid, x.depth ≤ z.depth := fun z hz => hdepth z (List.mem_append_left _ hz)
  have hend : x.depth ≤ y.depth := hdepth y (List.mem_append_right _ List.mem_cons_self)
  cases hx : x.isPassage with
  | true =>
    -- the turn itself may open a scope, so the thread is taken up before it
    have hthread : r.Thread p x.standing x.found (x :: mid) y.standing y.found :=
      .cons rfl rfl hleads hmid
    obtain ⟨hnodes, hframes⟩ := hthread.keeps hr hsits hsits.length_frames
      (List.forall_mem_cons.2 ⟨Nat.le_refl _, hlater⟩) hend List.suffix_rfl List.suffix_rfl
    refine ⟨hnodes, fun g hg => ?_⟩
    rw [Turn.glances_of_isPassage hx, List.mem_singleton] at hg
    rw [hg]
    exact hframes
  | false =>
    have hleft := PlacedTurn.sits_left hr hleads hsits
    obtain ⟨-, hgrows⟩ := x.pairwise_grows hr hx
    have hnodes := PlacedTurn.rests hleads hx
    have hdepth' : s'.nodes.length = x.depth := congrArg List.length hnodes
    obtain ⟨hsuffix, fs, hfs, hfound⟩ := hmid.keeps hr hleft hleft.length_frames
      (fun z hz => hdepth' ▸ hlater z hz) (hdepth' ▸ hend) List.suffix_rfl List.suffix_rfl
    rw [hnodes] at hsuffix
    exact ⟨hsuffix, fun g hg => ⟨fs, (hgrows g hg).trans hfs, hfound⟩⟩

theorem keeps_glances (h : r.Thread p ⟨[], false⟩ .fresh xs t d) {x y : PlacedTurn W}
    (hxy : Remains xs x y) {g g' : Glance} (hg : g ∈ x.glances r) (hg' : g' ∈ y.glances r) :
    ∃ fs, Grows g.context.frames fs ∧ fs <:+ g'.context.frames := by
  obtain ⟨-, hframes⟩ := h.grows_of_remains hr hxy
  obtain ⟨fs, hfs, hsuffix⟩ := hframes g hg
  obtain ⟨gs, hgs, hsuffix'⟩ := (PlacedTurn.grows_glances hr hg').suffix hsuffix
  exact ⟨gs, hfs.trans hgs, hsuffix'⟩

/-- The scope that a turn opens, up to the first turn after it. -/
theorem ends_of_closes (h : r.Thread p ⟨[], false⟩ .fresh xs t d) {x y : PlacedTurn W}
    (hxy : Closes xs x y) :
    y.standing.nodes = x.standing.nodes ∧ y.found.frames = x.found.frames := by
  obtain ⟨⟨level, values, henter⟩, pre, mid, post, hxs, hdepth, hend⟩ := hxy
  obtain ⟨-, hsits, s', hleads, hafter⟩ := h.turn hr hxs
  obtain ⟨hmid, -⟩ := hafter.split
  have hleft := PlacedTurn.sits_left hr hleads hsits
  have hopened : x.standing.nodes <:+ s'.nodes ∧ x.found.frames <:+ (x.left r).frames := by
    obtain ⟨n, -, -, hnodes, hframes⟩ := PlacedTurn.opens hr hleads hsits henter
    rw [hnodes, hframes]
    exact ⟨List.suffix_cons _ _, List.suffix_cons _ _⟩
  obtain ⟨hnodes, hframes⟩ :=
    hmid.guards hr hleft hsits.length_frames hdepth hopened.1 hopened.2
  have hsame := hnodes.eq_of_length_le hend
  have hlength : y.found.frames.length = x.found.frames.length := by
    rw [(hmid.sits hr hleft).length_frames, hsits.length_frames, hsame]
  exact ⟨hsame.symm, (hframes.eq_of_length hlength.symm).symm⟩

theorem length_layers (h : r.Thread p ⟨[], false⟩ .fresh xs t d) {x : PlacedTurn W} (hx : x ∈ xs)
    {g : Glance} (hg : g ∈ x.glances r) : g.context.layers.length = x.depth + 1 := by
  obtain ⟨-, hsits, -⟩ := h.turn_of_mem hr hx
  rw [← List.length_map Layer.frame]
  exact (PlacedTurn.grows_glances hr hg).length_eq.trans hsits.length_frames

/-- An attempt at a scenario sets the switches before anything else is asked. -/
theorem steers_of_enter (h : r.Thread p ⟨[], false⟩ .fresh xs t d) (hend : t.nodes.length ≤ 1)
    {pre post : List (PlacedTurn W)} {x : PlacedTurn W} (hxs : xs = pre ++ x :: post)
    {values : List (String × Datum)} (henter : x.request = .enter .scenario values) :
    ∃ q y z later, post = y :: z :: later ∧ y.standing.nodes.head? = some (.scenario q) ∧
      y.request = .reset q.continueAfterFailure ∧
      z.found.control = ⟨none, q.continueAfterFailure⟩ := by
  obtain ⟨hlinked, -, s', hleads, hafter⟩ := h.turn hr hxs
  rw [henter] at hleads
  generalize hstanding : x.standing = s at hleads
  cases hleads with
  | @enter level values n nodes steered hlevel hvalues hnode =>
    obtain ⟨q, rfl⟩ : ∃ q, n = .scenario q := by
      cases n with
      | scenario q => exact ⟨q, rfl⟩
      | suite | feature | rule => cases hlevel
    obtain ⟨y, ys, s₁, rfl, hy, -, hleads₁, hafter₁⟩ := hafter.exists_next hnode rfl hend
    obtain ⟨hreset, rfl⟩ := hleads₁.reset_of_unsteered
    obtain ⟨z, zs, s₂, rfl, -, hfound, -⟩ := hafter₁.exists_next hnode rfl hend
    refine ⟨q, y, z, zs, rfl, by rw [hy]; rfl, hreset, ?_⟩
    rw [hfound, Turn.left, hreset]
    rfl

end Runner.Thread

/-- A key in the innermost layer of one context stays visible in another one whose outer frames have
grown from those of the first. -/
theorem Context.find?_of_grows {c c' : Context} {fs : List Frame} (hgrows : Grows c.frames fs)
    (hsuffix : fs <:+ c'.frames) {l : Layer} (hl : l ∈ c.layers.head?) {key : String} {s : Stored}
    (hkey : l.find? key = some s) :
    let inner := c'.layers.take (c'.layers.length - c.layers.length)
    ∃ s', s'.owner = s.owner ∧ c'.find? key = (findIn key inner).or (some (l.level, s')) := by
  obtain ⟨rest, hlayers⟩ : ∃ rest, c.layers = l :: rest := by
    cases hc : c.layers with
    | nil => simp [hc] at hl
    | cons l' rest =>
      rw [hc, List.head?_cons, Option.mem_some_iff] at hl
      exact ⟨rest, by rw [hl]⟩
  -- the key is in the first frame, so it is in the first of the grown frames, and those end the
  -- frames of `c'`
  have hlookup : l.frame.keys.lookup key = some s.owner := by
    rw [l.lookup_frame, hkey]
    rfl
  have hframe : ∃ f gs, fs = f :: gs ∧ f.level = l.level ∧ f.keys.lookup key = some s.owner := by
    rw [frames, hlayers, List.map_cons] at hgrows
    generalize hf : l.frame = f at hgrows hlookup
    have hlevel : f.level = l.level := congrArg Frame.level hf.symm
    cases hgrows with
    | refl => exact ⟨f, _, rfl, hlevel, hlookup⟩
    | more news => exact ⟨_, _, rfl, hlevel, by rw [List.lookup_append, hlookup]; rfl⟩
  have hlength : fs.length = c.layers.length := by
    rw [hgrows.length_eq, frames, List.length_map]
  obtain ⟨f, gs, rfl, hlevel, hfound⟩ := hframe
  obtain ⟨inner, hinner⟩ := hsuffix
  obtain ⟨ls, ls', hlayers', rfl, hls'⟩ := List.map_eq_append_iff.1 hinner.symm
  obtain ⟨l', outer, rfl, rfl, rfl⟩ := List.map_eq_cons_iff.1 hls'
  rw [l'.lookup_frame] at hfound
  obtain ⟨s', hs', howner⟩ := Option.map_eq_some_iff.1 hfound
  refine ⟨s', howner, ?_⟩
  have htake : c'.layers.take (c'.layers.length - c.layers.length) = ls := by
    rw [hlayers', ← hlength]
    simp
  rw [htake, find?, hlayers', findIn_append, findIn, hs', ← hlevel]
  rfl

namespace Runner

variable {r : Runner W} {suite : Suite} {world : W} {cancelled : Bool}

theorem Thread.isolated (hr : r.Faithful) {p : Plan} {xs : List (PlacedTurn W)} {t : Standing}
    {d : Context} (h : r.Thread p ⟨[], false⟩ .fresh xs t d) (hend : t.nodes.length ≤ 1) :
    Isolated r p xs where
  linked x hx := (h.turn_of_mem hr hx).1
  hooks x hx event hrequest := by
    obtain ⟨-, -, s', hleads⟩ := h.turn_of_mem hr hx
    rw [hrequest] at hleads
    cases hleads with
    | hooks hready hhears =>
      obtain ⟨⟨nodes, hnodes, -⟩, -⟩ := hready
      exact ⟨_, by rw [hnodes]; rfl, hhears⟩
  calls x hx m step hrequest := by
    obtain ⟨-, -, s', hleads⟩ := h.turn_of_mem hr hx
    rw [hrequest] at hleads
    cases hleads with
    | call hready =>
      obtain ⟨⟨nodes, hnodes, -⟩, -⟩ := hready
      exact ⟨_, by rw [hnodes]; rfl⟩
  levels x hx g hg := by
    obtain ⟨-, hsits, -⟩ := h.turn_of_mem hr hx
    rw [Context.levels_eq_frames, (PlacedTurn.grows_glances hr hg).levels_eq]
    exact hsits.levels_frames
  first x hx := by
    cases xs with
    | nil => cases hx
    | cons y ys =>
      obtain rfl := Option.mem_some_iff.1 hx
      have hsplit : r.Thread p ⟨[], false⟩ .fresh ([] ++ y :: ys) t d := h
      rw [hsplit.split.1.eq_of_nil.1]
  begins pre x y post hxs level values henter := by
    obtain ⟨hsits, hleads, hfound⟩ := h.next hr hxs
    rw [hfound]
    exact PlacedTurn.opens hr hleads hsits henter
  leaves pre x y post hxs hleave := by
    obtain ⟨hsits, hleads, hfound⟩ := h.next hr hxs
    rw [hfound]
    exact PlacedTurn.closes hr hleads hsits hleave
  rests pre x y post hxs hx := by
    obtain ⟨-, hleads, -⟩ := h.next hr hxs
    exact PlacedTurn.rests hleads hx
  grows x hx := x.grows_frames hr
  keeps x y hxy := ⟨(h.grows_of_remains hr hxy).1, fun g hg g' hg' => h.keeps_glances hr hxy hg hg'⟩
  visible x y hxy g hg g' hg' l hl key s hkey := by
    obtain ⟨fs, hgrows, hsuffix⟩ := h.keeps_glances hr hxy hg hg'
    obtain ⟨hx, hy⟩ := hxy.mem
    have hlengths : g'.context.layers.length - g.context.layers.length = y.depth - x.depth := by
      rw [h.length_layers hr hx hg, h.length_layers hr hy hg', Nat.add_sub_add_right]
    rw [← hlengths]
    exact Context.find?_of_grows hgrows hsuffix hl hkey
  stores x hx := x.answered_glances r
  shows x hx := by
    refine (x.grows_frames hr).imp fun {g g'} hgg' l hl key s hkey => ?_
    have hlength : g'.context.layers.length = g.context.layers.length := by
      simpa [Context.frames] using hgg'.length_eq
    obtain ⟨s', howner, hfound⟩ := Context.find?_of_grows hgg' List.suffix_rfl hl hkey
    rw [hlength, Nat.sub_self] at hfound
    exact ⟨s', howner, hfound⟩
  ends x y hxy := by
    obtain ⟨hnodes, hframes⟩ := h.ends_of_closes hr hxy
    exact ⟨hnodes, hframes, by rw [Context.keys_eq_frames, Context.keys_eq_frames, hframes]⟩
  steers pre x post hxs values henter := h.steers_of_enter hr hend hxs henter

/-- On every context of a run whose user code goes to the context through its methods, the scopes
keep to themselves. -/
theorem scopes_isolated (r : Runner W) (hr : r.Faithful) (suite : Suite) (world : W)
    (cancelled : Bool) {xs : List (Turn W)} (h : r.Trails suite world cancelled xs) :
    ∃ ys : List (PlacedTurn W), ys.map (·.toTurn) = xs ∧
      Isolated r (r.options.plan suite) ys := by
  obtain ⟨ys, t, d, hys, hthread, hend⟩ := h.exists_thread
  exact ⟨ys, hys, hthread.isolated hr hend⟩

theorem faithful_ofHooks {hooks : Hooks Unit}
    (h : ∀ hook ∈ hooks.hooks, ∀ event, (hook.call event).Faithful) : (ofHooks hooks).Faithful where
  hooks := h
  steps _ hd := absurd hd List.not_mem_nil

/-- A hook stores a value in the scope of a scenario, where it is visible from the next glance on.
In the feature around it the value is gone. -/
theorem scopes_isolated_single :
    let r := ofHooks ⟨[⟨.beforeScenario, fun _ => .set "count" (.int 1) fun _ => .done .ok⟩,
      ⟨.afterScenario, fun _ => .look fun _ => .done .ok⟩,
      ⟨.afterFeature, fun _ => .look fun _ => .done .ok⟩]⟩
    let suite := Suite.single (.named "scenario")
    let xs := r.trail (r.options.runPlan (r.options.plan suite)) (.start () false)
    r.Faithful ∧ r.Trails suite () false xs ∧
      (∃ ys : List (PlacedTurn Unit), ys.map (·.toTurn) = xs ∧
        Isolated r (r.options.plan suite) ys) ∧
      (xs.filterMap fun x => match x.request with
        | .hooks event =>
          some (event.point, (x.glances r).map fun g => (g.context.find? "count").isSome)
        | _ => none) =
        [(.beforeAll, [false]), (.beforeFeature, [false]),
          (.beforeScenario, [false, true]), (.afterScenario, [true, true]),
          (.afterFeature, [false, false]), (.afterAll, [false])] := by
  intro r suite xs
  have hr : r.Faithful := faithful_ofHooks fun hook hmem event => by
    revert event
    revert hook
    simp only [List.forall_mem_cons]
    exact ⟨fun _ _ => trivial, fun _ _ => trivial, fun _ _ => trivial, fun _ h => by cases h⟩
  have h : r.Trails suite () false xs := .inOrder (by decide)
  exact ⟨hr, h, r.scopes_isolated hr suite () false h, by decide⟩

end Runner

end Rehearsal
