import Rehearsal.Proofs.Faithful

/-!
# Scripts on common ground

The layers that were open before some work started are the ground of that work. A worker finds
the ground in a copy whose layers are shared, so the one way in which it can tell the copy from
the original is to change a value of the ground in place. `Script.touches` lists the levels at
which a script tries to change values in place, and `Script.play_ground` says that a faithful
script that spares the ground does the same on the original and on the copy, and leaves both as they
are.
-/

namespace Rehearsal

/-- The layer as it is when no copy of it is in use. -/
def Layer.unshared (l : Layer) : Layer := { l with shared := false }

namespace Context

theorem findIn_unshared (key : String) (ls : List Layer) :
    findIn key (ls.map Layer.unshared) = findIn key ls := by
  induction ls with
  | nil => rfl
  | cons l rest ih =>
    rw [List.map_cons, findIn, findIn, ih]
    rfl

theorem findIn_append (key : String) (ls base : List Layer) :
    findIn key (ls ++ base) = (findIn key ls).or (findIn key base) := by
  induction ls with
  | nil => rfl
  | cons l rest ih =>
    rw [List.cons_append, findIn, findIn, ih]
    split <;> rfl

/-- What is found lies in one of the layers, which therefore is not empty. -/
theorem exists_of_findIn {key : String} {ls : List Layer} {level : ScopeLevel} {s : Stored}
    (h : findIn key ls = some (level, s)) : ∃ l ∈ ls, l.level = level ∧ l.values ≠ [] := by
  induction ls with
  | nil => cases h
  | cons l rest ih =>
    unfold findIn at h
    split at h
    · rename_i s' hs
      cases h
      refine ⟨l, List.mem_cons_self, rfl, ?_⟩
      rintro hnil
      rw [Layer.find?, hnil] at hs
      cases hs
    · obtain ⟨l', hl', hlevel⟩ := ih h
      exact ⟨l', List.mem_cons_of_mem l hl', hlevel⟩

def levels (c : Context) : List ScopeLevel := c.layers.map (·.level)

def withLayers (c : Context) (layers : List Layer) : Context := { c with layers := layers }

theorem withLayers_eq {c : Context} {layers : List Layer} (h : c.layers = layers) :
    c.withLayers layers = c := by
  subst h
  rfl

/-- Nobody sees whether a layer is shared. -/
theorem view_unshared (c : Context) :
    (c.withLayers (c.layers.map Layer.unshared)).view = c.view := by
  have hlevel : (c.withLayers (c.layers.map Layer.unshared)).level = c.level := by
    unfold level withLayers
    cases c.layers <;> rfl
  have hkeys : (c.withLayers (c.layers.map Layer.unshared)).keys = c.keys := by
    unfold keys withLayers
    rw [List.flatMap_map]
    rfl
  have hfind : ∀ key, (c.withLayers (c.layers.map Layer.unshared)).find? key = c.find? key :=
    fun key => findIn_unshared key c.layers
  unfold view
  rw [hlevel, hkeys]
  simp only [hfind]
  simp [withLayers, Layer.unshared, Function.comp_def]

variable {ls base base' : List Layer}

theorem view_ground (hbase : base'.map Layer.unshared = base.map Layer.unshared) (c : Context) :
    (c.withLayers (ls ++ base')).view = (c.withLayers (ls ++ base)).view := by
  rw [← view_unshared (c.withLayers (ls ++ base')), ← view_unshared (c.withLayers (ls ++ base))]
  simp only [withLayers, List.map_append, hbase]

theorem find?_ground (hbase : base'.map Layer.unshared = base.map Layer.unshared) (c : Context)
    (key : String) :
    (c.withLayers (ls ++ base')).find? key = (c.withLayers (ls ++ base)).find? key := by
  have hfound : findIn key base' = findIn key base := by
    rw [← findIn_unshared key base', ← findIn_unshared key base, hbase]
  simp only [find?, withLayers, findIn_append, hfound]

theorem updateIn_eq_none {key : String} (k : Datum.Kind) (f : k.Carrier → k.Carrier)
    (h : findIn key base = none) : updateIn key k f base = none := by
  induction base with
  | nil => rfl
  | cons l rest ih =>
    unfold findIn at h
    split at h
    · cases h
    · rename_i hl
      rw [updateIn, hl]
      dsimp only
      rw [ih h]
      rfl

/-- What is not found in the ground is not changed there. -/
theorem updateIn_append {key : String} (k : Datum.Kind) (f : k.Carrier → k.Carrier)
    (h : findIn key ls = none → findIn key base = none) :
    updateIn key k f (ls ++ base) = (updateIn key k f ls).map fun (ls', x) => (ls' ++ base, x) := by
  induction ls with
  | nil => exact updateIn_eq_none k f (h rfl)
  | cons l rest ih =>
    rw [List.cons_append, updateIn, updateIn]
    cases hl : l.find? key with
    | some s =>
      dsimp only
      cases l.shared with
      | true => rfl
      | false => cases hs : s.datum.as? k <;> simp
    | none =>
      dsimp only
      rw [ih, Option.map_map, Option.map_map]
      · rfl
      · intro hrest
        refine h ?_
        rw [findIn, hl]
        exact hrest

theorem levels_updateIn {key : String} {k : Datum.Kind} {f : k.Carrier → k.Carrier}
    {ls' : List Layer} {x : k.Carrier} (h : updateIn key k f ls = some (ls', x)) :
    ls'.map (·.level) = ls.map (·.level) := by
  induction ls generalizing ls' with
  | nil => cases h
  | cons l rest ih =>
    unfold updateIn at h
    split at h
    · split at h
      · cases h
      · split at h
        · cases h
          rfl
        · cases h
    · obtain ⟨⟨rest', x'⟩, hrest, heq⟩ := Option.map_eq_some_iff.1 h
      cases heq
      rw [List.map_cons, List.map_cons, ih hrest]

theorem levels_store (c : Context) (key : String) (s : Stored) :
    (c.store key s).levels = c.levels := by
  unfold store levels
  cases hc : c.layers with
  | nil => rw [hc]
  | cons l rest => rfl

theorem levels_update (c : Context) (key : String) (k : Datum.Kind)
    (f : k.Carrier → k.Carrier) : (c.update key k f).1.levels = c.levels := by
  unfold update
  split
  · rename_i ls' x h
    exact levels_updateIn h
  · rfl

/-- The context is over the ground, and the other one is the same over the other ground. -/
structure OnGround (base base' : List Layer) (ls ls' : List Layer) (c c' : Context) : Prop where
  levels : ls'.map (·.level) = ls.map (·.level)
  layers : c.layers = ls' ++ base
  other : c' = c.withLayers (ls' ++ base')

theorem ne_nil_of_levels {ls' : List Layer} (h : ls'.map (·.level) = ls.map (·.level))
    (hne : ls ≠ []) : ls' ≠ [] := by
  rintro rfl
  exact hne (List.map_eq_nil_iff.1 h.symm)

theorem store_ground {c : Context} (hne : ls ≠ []) (hc : c.layers = ls ++ base) (key : String)
    (s : Stored) :
    ∃ ls', OnGround base base' ls ls' (c.store key s)
      ((c.withLayers (ls ++ base')).store key s) := by
  obtain ⟨l, rest, rfl⟩ := List.exists_cons_of_ne_nil hne
  refine ⟨l.put key s :: rest, rfl, ?_, ?_⟩
  · rw [store, hc]
    rfl
  · rw [store, store, hc]
    rfl

/-- User code sets a value on both grounds, or on none. -/
theorem set_ground (hbase : base'.map Layer.unshared = base.map Layer.unshared) {c : Context}
    (hne : ls ≠ []) (hc : c.layers = ls ++ base) (key : String) (d : Datum) :
    (∃ e, c.set key d = .error e ∧ (c.withLayers (ls ++ base')).set key d = .error e) ∨
      ∃ c₁ c₂ ls', c.set key d = .ok c₁ ∧ (c.withLayers (ls ++ base')).set key d = .ok c₂ ∧
        OnGround base base' ls ls' c₁ c₂ := by
  have hfind : (c.withLayers (ls ++ base')).find? key = c.find? key := by
    rw [find?_ground hbase, withLayers_eq hc]
  unfold set
  rw [hfind]
  split
  · exact .inl ⟨_, rfl, rfl⟩
  · obtain ⟨ls', h⟩ : ∃ ls', OnGround base base' ls ls' _ _ := store_ground hne hc key ⟨d, .user⟩
    exact .inr ⟨_, _, ls', rfl, rfl, h⟩

/-- A value that does not lie in the ground is changed in place on both grounds, or on none. -/
theorem update_ground (hbase : base'.map Layer.unshared = base.map Layer.unshared) {c : Context}
    (hc : c.layers = ls ++ base) {key : String} (k : Datum.Kind) (f : k.Carrier → k.Carrier)
    (hspared : ∀ l ∈ base, l.values = [] ∨ l.level ∉ ((c.find? key).map (·.1)).toList) :
    ∃ ls', OnGround base base' ls ls' (c.update key k f).1
        ((c.withLayers (ls ++ base')).update key k f).1 ∧
      ((c.withLayers (ls ++ base')).update key k f).2 = (c.update key k f).2 := by
  have hnone : findIn key ls = none → findIn key base = none := by
    intro hls
    cases hfound : findIn key base with
    | none => rfl
    | some found =>
      obtain ⟨l, hl, hlevel, hvalues⟩ := exists_of_findIn hfound
      have hc' : c.find? key = some found := by
        rw [find?, hc, findIn_append, hls, hfound]
        rfl
      rcases hspared l hl with h | h
      · exact absurd h hvalues
      · rw [hc', hlevel] at h
        simp at h
  have hnone' : findIn key ls = none → findIn key base' = none := by
    rw [← findIn_unshared key base', hbase, findIn_unshared]
    exact hnone
  unfold update
  rw [hc, updateIn_append k f hnone, withLayers, updateIn_append k f hnone']
  cases h : updateIn key k f ls with
  | none => exact ⟨ls, ⟨rfl, hc, rfl⟩, rfl⟩
  | some found =>
    obtain ⟨ls', x⟩ := found
    exact ⟨ls', ⟨levels_updateIn h, rfl, rfl⟩, rfl⟩

end Context

def Moment.withLayers (m : Moment W) (layers : List Layer) : Moment W :=
  { m with context := m.context.withLayers layers }

namespace Script

/-- The levels of the values that the script tries to change in place. -/
def touches (own : String) : Script W α → Moment W → List ScopeLevel
  | done _, _ => []
  | world f next, m => (next (f m.world)).touches own { m with world := f m.world }
  | look next, m => (next m.context.view).touches own m
  | set key d next, m =>
    match m.context.set key d with
    | .ok c => (next (.ok ())).touches own { m with context := c }
    | .error e => (next (.error e)).touches own m
  | update key k f next, m =>
    ((m.context.find? key).map (·.1)).toList ++
      (next (m.context.update key k f).2).touches own
        { m with context := (m.context.update key k f).1 }
  | output f next, m =>
    next.touches own { m with context := { m.context with output := f m.context.output } }
  | skipScenario reason next, m =>
    next.touches own
      { m with context :=
          { m.context with control := { m.context.control with skipReason := some reason } } }
  | continueAfterFailure on next, m =>
    next.touches own
      { m with context :=
          { m.context with control := { m.context.control with continueAfterFailure := on } } }
  | log e next, m => next.touches own { m with log := m.log ++ e.collected own }
  | cancel next, m => next.touches own { m with cancelled := true }
  | exchange f next, m =>
    (next (f m.world m.context).1).touches own
      { m with world := (f m.world m.context).1, context := (f m.world m.context).2 }

variable {ls base base' : List Layer}

/-- A faithful script that changes no value of the ground in place does the same over another ground
with the same values, and leaves the ground as it is. -/
theorem play_ground (own : String) (hbase : base'.map Layer.unshared = base.map Layer.unshared)
    {s : Script W α} (hs : s.Faithful) {m : Moment W} (hne : ls ≠ [])
    (hm : m.context.layers = ls ++ base)
    (hspared : ∀ l ∈ base, l.values = [] ∨ l.level ∉ s.touches own m) :
    ∃ ls', ls'.map (·.level) = ls.map (·.level) ∧
      (s.play own m).1.context.layers = ls' ++ base ∧
      s.play own (m.withLayers (ls ++ base')) =
        ((s.play own m).1.withLayers (ls' ++ base'), (s.play own m).2) := by
  induction s generalizing m ls with
  | done a => exact ⟨ls, rfl, hm, rfl⟩
  | world f next ih => exact ih _ (hs _) (m := { m with world := f m.world }) hne hm hspared
  | look next ih =>
    have hview : (m.withLayers (ls ++ base')).context.view = m.context.view := by
      rw [Moment.withLayers, Context.view_ground hbase, Context.withLayers_eq hm]
    obtain ⟨ls', hlevels, hlayers, hplay⟩ := ih m.context.view (hs _) hne hm hspared
    refine ⟨ls', hlevels, hlayers, ?_⟩
    rw [play, hview]
    exact hplay
  | set key d next ih =>
    rcases Context.set_ground hbase hne hm key d with ⟨e, hset, hset'⟩ |
      ⟨c₁, c₂, ls₁, hset, hset', hground⟩
    · simp only [touches, hset] at hspared
      obtain ⟨ls', hlevels, hlayers, hplay⟩ := ih (.error e) (hs _) hne hm hspared
      refine ⟨ls', hlevels, ?_, ?_⟩
      · simpa only [play, hset] using hlayers
      · simpa only [play, hset, Moment.withLayers, hset'] using hplay
    · simp only [touches, hset] at hspared
      obtain ⟨ls', hlevels, hlayers, hplay⟩ := ih (.ok ()) (hs _) (m := { m with context := c₁ })
        (Context.ne_nil_of_levels hground.levels hne) hground.layers hspared
      refine ⟨ls', hlevels.trans hground.levels, ?_, ?_⟩
      · simpa only [play, hset] using hlayers
      · simpa only [play, hset, Moment.withLayers, hset', hground.other] using hplay
  | update key kind f next ih =>
    obtain ⟨ls₁, hground, hvalue⟩ := Context.update_ground hbase hm kind f fun l hl =>
      (hspared l hl).imp_right fun h hmem => h (List.mem_append_left _ hmem)
    have hne₁ := Context.ne_nil_of_levels hground.levels hne
    obtain ⟨ls', hlevels, hlayers, hplay⟩ := ih (m.context.update key kind f).2
      (hs _) (m := { m with context := (m.context.update key kind f).1 }) hne₁ hground.layers
        fun l hl => (hspared l hl).imp_right fun h hmem => h (List.mem_append_right _ hmem)
    refine ⟨ls', hlevels.trans hground.levels, hlayers, ?_⟩
    simpa only [play, Moment.withLayers, hvalue, hground.other] using hplay
  | output f next ih => exact ih hs (m := _) hne hm hspared
  | skipScenario reason next ih => exact ih hs (m := _) hne hm hspared
  | continueAfterFailure on next ih => exact ih hs (m := _) hne hm hspared
  | log e next ih => exact ih hs (m := _) hne hm hspared
  | cancel next ih => exact ih hs (m := _) hne hm hspared
  | exchange f next => exact hs.elim

end Script

end Rehearsal
