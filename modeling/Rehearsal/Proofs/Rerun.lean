import Mathlib.Data.List.Induction
import Mathlib.Data.List.Pairwise
import Rehearsal.Proofs.Account.Crew
import Rehearsal.Proofs.Listing
import Rehearsal.Proofs.Rerun.File
import Rehearsal.Proofs.Selection

/-!
# Running failed scenarios again

The rerun file of a run, read back, is one location for each scenario that failed, and a plan
that selects by these locations alone selects the scenarios that failed and no others
(`Runner.rerun_selects`).

A location knows its scenario by the path and a line only, so the lines have to tell scenarios
apart: this is `Suite.Distinct`.
-/

namespace Rehearsal

namespace ScenarioId

theorem length_insert {id : ScenarioId} {ids : List ScenarioId} (h : id ∉ ids) :
    (insert id ids).length = ids.length + 1 := by
  induction ids with
  | nil => rfl
  | cons a rest ih =>
    rw [List.mem_cons, not_or] at h
    unfold insert
    split
    · rfl
    · rw [if_neg h.1, List.length_cons, ih h.2, List.length_cons]

theorem length_sorted {ids : List ScenarioId} (h : ids.Nodup) :
    (sorted ids).length = ids.length := by
  induction ids with
  | nil => rfl
  | cons id rest ih =>
    rw [List.nodup_cons] at h
    have hsorted : sorted (id :: rest) = insert id (sorted rest) := rfl
    have hnew : id ∉ sorted rest := fun hmem => h.1 ((mem_sorted id rest).1 hmem)
    rw [hsorted, length_insert hnew, ih h.2, List.length_cons]

end ScenarioId

namespace Rerun

/-- A line goes to the group of its path, or to a new group behind the others. -/
theorem addLine_map {ks : List String} (hks : ks.Nodup) (lines : String → List Nat) (path : String)
    (line : Nat) :
    addLine path line (ks.map fun k => (k, lines k)) =
      (ks.map fun k => (k, lines k ++ if path = k then [line] else [])) ++
        if path ∈ ks then [] else [(path, [line])] := by
  induction ks with
  | nil => simp [addLine]
  | cons k rest ih =>
    rw [List.nodup_cons] at hks
    rw [List.map_cons, List.map_cons, addLine]
    by_cases hk : k = path
    · subst hk
      have hsame : (rest.map fun k' => (k', lines k' ++ if k = k' then [line] else [])) =
          rest.map fun k' => (k', lines k') := by
        refine List.map_congr_left fun k' hk' => ?_
        rw [if_neg fun heq : k = k' => hks.1 (heq ▸ hk'), List.append_nil]
      simp [hsame]
    · have hkp : ¬ path = k := fun heq => hk heq.symm
      rw [if_neg hk, ih hks.2, if_neg hkp, List.append_nil]
      simp [hkp]

theorem byDocument_append (ids : List ScenarioId) (id : ScenarioId) :
    byDocument (ids ++ [id]) = addLine id.path id.line (byDocument ids) := by
  rw [byDocument, List.foldl_append]
  rfl

/-- The groups of a rerun file: the paths in the order in which they come up first, each with the
lines of its scenarios in their order. -/
theorem byDocument_eq (ids : List ScenarioId) :
    byDocument ids = (ids.map (·.path)).eraseDups.map fun path =>
      (path, (group (·.path) ids path).map (·.line)) := by
  induction ids using List.reverseRecOn with
  | nil => rfl
  | append_singleton ids id ih =>
    have hgroup : ∀ path, (group (·.path) (ids ++ [id]) path).map (·.line) =
        (group (·.path) ids path).map (·.line) ++ if id.path = path then [id.line] else [] := by
      intro path
      rw [group_append, List.map_append]
      by_cases hpath : id.path = path <;> simp [group, hpath]
    have hpaths : ((ids ++ [id]).map (·.path)).eraseDups = (ids.map (·.path)).eraseDups ++
        if id.path ∈ ids.map (·.path) then [] else [id.path] := by
      rw [List.map_append, List.map_singleton, List.eraseDups_append, List.cons_removeAll,
        List.nil_removeAll]
      by_cases hmem : id.path ∈ ids.map (·.path)
      · rw [if_pos hmem, if_neg (by simpa using hmem)]
        rfl
      · rw [if_neg hmem, if_pos (by simpa using hmem), List.eraseDups_cons]
        rfl
    rw [byDocument_append, ih, addLine_map (nodup_eraseDups _), hpaths, List.map_append]
    refine congrArg₂ (· ++ ·) (List.map_congr_left fun path _ => ?_) ?_
    · rw [hgroup]
    · by_cases hmem : id.path ∈ ids.map (·.path)
      · rw [if_pos hmem, if_pos (List.mem_eraseDups.2 hmem)]
        rfl
      · have hempty : group (·.path) ids id.path = [] := by
          refine List.filter_eq_nil_iff.2 fun id' hid' => ?_
          have hne : id'.path ≠ id.path := fun heq => hmem (heq ▸ List.mem_map_of_mem hid')
          simpa using hne
        rw [if_neg hmem, if_neg fun h => hmem (List.mem_eraseDups.1 h), List.map_singleton, hgroup,
          hempty, if_pos rfl]
        rfl

/-- The locations of scenarios, one for each, the scenarios of a document together. -/
def locations (ids : List ScenarioId) : List Location :=
  (ids.map (·.path)).eraseDups.flatMap fun path =>
    (ids.filter (·.path = path)).map fun id => ⟨path, some id.line⟩

/-- There is one location for each scenario. -/
theorem perm_locations (ids : List ScenarioId) :
    (locations ids).Perm (ids.map fun id => ⟨id.path, some id.line⟩) := by
  have hgroups : locations ids = ((ids.map (·.path)).eraseDups.flatMap
      (group (·.path) ids)).map fun id => ⟨id.path, some id.line⟩ := by
    rw [List.map_flatMap, locations]
    refine congrArg List.flatten (List.map_congr_left fun path _ => List.map_congr_left ?_)
    intro id hid
    have hpath : id.path = path := by simpa using (List.mem_filter.1 hid).2
    rw [hpath]
  rw [hgroups]
  refine (perm_flatMap_group (nodup_eraseDups _) fun id hid => ?_).map _
  exact List.mem_eraseDups.2 (List.mem_map_of_mem hid)

theorem flatMap_locationsOf_byDocument (ids : List ScenarioId) :
    (byDocument ids).flatMap locationsOf = locations ids := by
  rw [byDocument_eq, List.flatMap_map, locations]
  refine congrArg List.flatten (List.map_congr_left fun path _ => ?_)
  rw [locationsOf, List.map_map]
  rfl

/-- Scenarios with readable paths make groups that may be written into a rerun file. -/
theorem fits_byDocument {ids : List ScenarioId}
    (h : ∀ id ∈ ids, Readable id.path ∧ id.line ≤ 4294967295) : ∀ g ∈ byDocument ids, Fits g := by
  intro g hg
  rw [byDocument_eq] at hg
  obtain ⟨path, hpath, rfl⟩ := List.mem_map.1 hg
  obtain ⟨id, hid, rfl⟩ := List.mem_map.1 (List.mem_eraseDups.1 hpath)
  refine ⟨(h id hid).1, ?_, fun line hline => ?_⟩
  · have hmem : id ∈ group (·.path) ids id.path := List.mem_filter.2 ⟨hid, by simp⟩
    exact List.ne_nil_of_mem (List.mem_map_of_mem hmem)
  · obtain ⟨id', hid', rfl⟩ := List.mem_map.1 hline
    exact (h id' (List.mem_filter.1 hid').1).2

end Rerun

/-- The lines of the scenarios tell them apart: where the paths are the same, but for a leading
`./`, the lines differ from each other and from the lines of the outlines of other scenarios. -/
def Suite.Apart (a b : Feature × ScenarioPlace) : Prop :=
  Location.plainPath a.1.path = Location.plainPath b.1.path →
    a.2.scenario.line ≠ b.2.scenario.line ∧ a.2.outlineLine? ≠ some b.2.scenario.line ∧
      b.2.outlineLine? ≠ some a.2.scenario.line

/-- Any two scenarios of the suite are told apart by their lines. -/
def Suite.Distinct (s : Suite) : Prop := s.places.Pairwise Suite.Apart

instance (a b : Feature × ScenarioPlace) : Decidable (Suite.Apart a b) :=
  inferInstanceAs (Decidable (_ → _))

instance (s : Suite) : Decidable s.Distinct := inferInstanceAs (Decidable (List.Pairwise _ _))

instance : Std.Symm Suite.Apart where
  symm _ _ h hpath :=
    let ⟨hlines, hleft, hright⟩ := h hpath.symm
    ⟨Ne.symm hlines, hright, hleft⟩

namespace Suite

variable {s : Suite}

theorem Distinct.nodup_ids (h : s.Distinct) : (s.places.map fun x => x.1.idAt x.2).Nodup := by
  rw [List.Nodup, List.pairwise_map]
  refine h.imp fun hapart heq => ?_
  obtain ⟨hpath, hline, -⟩ := ScenarioId.mk.inj heq
  exact (hapart (congrArg Location.plainPath hpath)).1 hline

/-- The places of a suite whose scenarios are selected by the locations of some of them. -/
theorem Distinct.selected_iff (h : s.Distinct) {o : RunOptions} {ids : List ScenarioId}
    {ls : List Location} (hls : ls.Perm (ids.map fun id => ⟨id.path, some id.line⟩))
    (hne : ids ≠ []) (hids : ∀ id ∈ ids, ∃ x ∈ s.places, x.1.idAt x.2 = id)
    (ho : o.selection = ⟨.all, [], ls⟩) {x : Feature × ScenarioPlace} (hx : x ∈ s.places) :
    (o.planAt x.1 x.2).selected = true ↔ x.1.idAt x.2 ∈ ids := by
  have hplace : ∀ y ∈ s.places, y.2 ∈ y.1.places := by
    intro y hy
    obtain ⟨f, -, hf⟩ := List.mem_flatMap.1 hy
    obtain ⟨p, hp, rfl⟩ := List.mem_map.1 hf
    exact hp
  have hmem : ∀ l, l ∈ ls ↔ ∃ id ∈ ids, (⟨id.path, some id.line⟩ : Location) = l := by
    intro l
    rw [hls.mem_iff, List.mem_map]
  have hnil : ls.isEmpty = false := by
    rw [List.isEmpty_eq_false_iff]
    exact fun heq => hne (by simpa using hls.length_eq.symm.trans (congrArg List.length heq))
  have hselected : (o.planAt x.1 x.2).selected =
      ls.any fun l => l.picks x.1.path x.2.scenario := by
    change o.selection.selects x.1.path x.2.scenario _ = _
    rw [ho, Selection.selects, hnil]
    rfl
  rw [hselected, List.any_eq_true]
  constructor
  · rintro ⟨l, hl, hpicks⟩
    obtain ⟨id, hid, rfl⟩ := (hmem l).1 hl
    obtain ⟨y, hy, rfl⟩ := hids id hid
    obtain ⟨hpath, hline⟩ := (Feature.picks_iff (hplace x hx) _).1 hpicks
    by_cases hxy : x = y
    · rwa [hxy]
    · obtain ⟨hlines, houtline, -⟩ := h.forall hx hy hxy hpath.symm
      rcases hline with hnone | hown | ⟨line, hline, houter⟩
      · cases hnone
      · exact absurd (Option.some.inj hown).symm hlines
      · exact absurd (hline.trans houter.symm) houtline
  · intro hid
    refine ⟨_, (hmem _).2 ⟨_, hid, rfl⟩, ?_⟩
    exact (Feature.picks_iff (hplace x hx) _).2 ⟨rfl, .inr (.inl rfl)⟩

/-- The plan of a suite goes through its places in order. -/
theorem scenarios_plan (o : RunOptions) :
    (o.plan s).features.flatMap (·.scenarios) = s.places.map fun x => o.planAt x.1 x.2 := by
  rw [RunOptions.plan, List.flatMap_map, places, List.map_flatMap]
  refine congrArg List.flatten (List.map_congr_left fun f _ => ?_)
  rw [o.scenarios_planFeature, List.map_map]
  rfl

end Suite

/-- Members that are told apart by a key are known by it. -/
theorem filter_map_of_nodup {α κ : Type} [DecidableEq κ] {key : α → κ} {xs : List α}
    (h : (xs.map key).Nodup) (p : α → Bool) :
    (xs.map key).filter (fun k => decide (k ∈ (xs.filter p).map key)) = (xs.filter p).map key := by
  rw [List.filter_map]
  refine congrArg (List.map key) (List.filter_congr fun x hx => ?_)
  rw [Function.comp_apply, Bool.eq_iff_iff, decide_eq_true_eq, List.mem_map]
  constructor
  · rintro ⟨y, hy, heq⟩
    obtain ⟨hy, hp⟩ := List.mem_filter.1 hy
    rwa [← List.inj_on_of_nodup_map h hy hx heq]
  · exact fun hp => ⟨x, List.mem_filter.2 ⟨hx, hp⟩, rfl⟩

/-- The scenarios to run again are those that failed. -/
theorem RunAccount.Sound.rerun_eq {t : Terms} {b : Bool} {p : Plan} {a : RunAccount}
    (h : a.Sound t b p) : a.result.rerun = ScenarioId.sorted (a.result.failing.map (·.id)) := by
  rw [h.result]
  rfl

namespace RunResult

variable {x : RunResult} (hrerun : x.rerun = ScenarioId.sorted (x.failing.map (·.id)))
include hrerun

theorem mem_rerun_iff (id : ScenarioId) : id ∈ x.rerun ↔ id ∈ x.failing.map (·.id) := by
  rw [hrerun, ScenarioId.mem_sorted]

variable (hnodup : (x.scenarios.map (·.id)).Nodup)
include hnodup

theorem filter_rerun :
    (x.scenarios.map (·.id)).filter (fun id => x.rerun.contains id) = x.failing.map (·.id) := by
  refine Eq.trans (List.filter_congr fun id _ => ?_)
    (filter_map_of_nodup hnodup (·.status.isFailure))
  rw [Bool.eq_iff_iff, List.contains_iff_mem, mem_rerun_iff hrerun, decide_eq_true_eq]
  rfl

theorem length_rerun : x.rerun.length = (x.failing.map (·.id)).length := by
  rw [hrerun, ScenarioId.length_sorted]
  exact (List.filter_sublist.map _).nodup hnodup

/-- The rerun file of a result in which something failed. -/
theorem render_rerun (hfailed : x.rerun ≠ []) :
    Rerun.render x = "# -- RERUN: " ++ toString (x.failing.map (·.id)).length ++
      " failing scenarios during last test run.\n" ++
        String.join ((Rerun.byDocument (x.failing.map (·.id))).map Rerun.documentLine) := by
  rw [Rerun.render, if_neg (by simpa using hfailed)]
  dsimp only
  rw [filter_rerun hrerun hnodup, length_rerun hrerun hnodup]

end RunResult

namespace Runner

/-- The rerun file of a run is read as one location for each scenario that failed, and these
locations select the scenarios that failed and no others. Lines are numbers of 32 bits. -/
theorem rerun_selects {W : Type} (r : Runner W) (suite : Suite) (world : W) (cancelled : Bool)
    {e : Ended W} (hends : r.Ends suite world cancelled e) {result : RunResult}
    (hreport : e.report? = some result) (hfailed : result.rerun ≠ []) (hdistinct : suite.Distinct)
    (hreadable : ∀ id ∈ result.rerun, Rerun.Readable id.path ∧ id.line ≤ 4294967295) :
    let failed := result.failing.map (·.id)
    ∃ ls, Rerun.parse (Rerun.render result) = .ok ls ∧ ls = Rerun.locations failed ∧
      ls.Perm (failed.map fun id => ⟨id.path, some id.line⟩) ∧
      (∃ rest, Rerun.render result = "# -- RERUN: " ++ toString ls.length ++
        " failing scenarios during last test run.\n" ++ rest) ∧
      ∀ o : RunOptions, o.selection = ⟨.all, [], ls⟩ →
        (∀ p ∈ (o.plan suite).features.flatMap (·.scenarios),
          p.selected = true ↔ p.id ∈ result.rerun) ∧
        (((o.plan suite).features.flatMap (·.scenarios)).filter (·.selected)).map (·.id) =
          failed := by
  intro failed
  obtain ⟨k, a, ha, hsame, -⟩ := hends.exists_account (hends.violation?_eq_none hreport)
  obtain rfl := Option.some.inj (hreport.symm.trans hsame)
  have hids := ha.ids
  have hnodup : (a.result.scenarios.map (·.id)).Nodup := hids ▸ hdistinct.nodup_ids
  have hmem : ∀ id, id ∈ a.result.rerun ↔ id ∈ failed := RunResult.mem_rerun_iff ha.rerun_eq
  have hne : failed ≠ [] := by
    obtain ⟨id, hid⟩ := List.exists_mem_of_ne_nil _ hfailed
    exact List.ne_nil_of_mem ((hmem id).1 hid)
  have hrender := RunResult.render_rerun ha.rerun_eq hnodup hfailed
  have hcount : (Rerun.locations failed).length = failed.length := by
    rw [(Rerun.perm_locations failed).length_eq, List.length_map]
  have hplaces : ∀ id ∈ failed, ∃ x ∈ suite.places, x.1.idAt x.2 = id := by
    intro id hid
    obtain ⟨s, hs, rfl⟩ := List.mem_map.1 hid
    have hin := List.mem_map_of_mem (f := ScenarioResult.id) (List.mem_of_mem_filter hs)
    rw [hids] at hin
    exact List.mem_map.1 hin
  refine ⟨Rerun.locations failed, ?_, rfl, Rerun.perm_locations failed, ⟨_, hcount ▸ hrender⟩, ?_⟩
  · rw [hrender, Rerun.parse_written _ (Rerun.fits_byDocument fun id hid =>
      hreadable id ((hmem id).2 hid)), Rerun.flatMap_locationsOf_byDocument]
  · intro o ho
    have hselected : ∀ x ∈ suite.places, (o.planAt x.1 x.2).selected = true ↔
        x.1.idAt x.2 ∈ a.result.rerun := by
      intro x hx
      rw [hdistinct.selected_iff (Rerun.perm_locations failed) hne hplaces ho hx, hmem]
    rw [Suite.scenarios_plan]
    refine ⟨?_, ?_⟩
    · intro p hp
      obtain ⟨x, hx, rfl⟩ := List.mem_map.1 hp
      exact hselected x hx
    · have hlisted := RunResult.filter_rerun ha.rerun_eq hnodup
      rw [hids, List.filter_map] at hlisted
      rw [List.filter_map, List.map_map]
      refine Eq.trans (congrArg (List.map _) (List.filter_congr fun x hx => ?_)) hlisted
      rw [Bool.eq_iff_iff, Function.comp_apply, Function.comp_apply, hselected x hx,
        List.contains_iff_mem]

/-- Two of the scenarios of a document fail, because of a hook for their tag. -/
theorem rerun_selects_tag :
    let r := ofHooks (Hooks.none.register .beforeTag fun _ => .done (.error "boom" false))
    let scenario (name : String) (line : Nat) (tags : List Tag) : FeatureChild :=
      .definition (.scenario { Scenario.named name with line := line, tags := .ofList tags })
    let suite : Suite := ⟨[{ Feature.named "feature" with
      path := "a.feature"
      children := [scenario "first" 3 [.ofText "slow"], scenario "second" 5 [],
        scenario "third" 7 [.ofText "slow"]] }]⟩
    ∃ result, (r.run suite () false).report? = some result ∧
      ∃ ls, Rerun.parse (Rerun.render result) = .ok ls ∧
        ls.Perm [⟨"a.feature", some 3⟩, ⟨"a.feature", some 7⟩] := by
  intro r scenario suite
  have hreport : (r.run suite () false).report?.any (fun result =>
      decide (result.rerun = [⟨"a.feature", 3, "first"⟩, ⟨"a.feature", 7, "third"⟩]) &&
      decide (result.failing.map (·.id) =
        [⟨"a.feature", 3, "first"⟩, ⟨"a.feature", 7, "third"⟩])) = true := by decide
  have hpath : Rerun.Readable "a.feature" := by
    refine ⟨by decide, by decide, fun c hc => ?_, Location.endsInName_of_not_mem (by decide)⟩
    obtain rfl : c = 'a' := Option.some.inj (hc.symm.trans (by decide))
    decide
  obtain ⟨result, hresult, hids⟩ := (Option.any_eq_true _ _).1 hreport
  rw [Bool.and_eq_true, decide_eq_true_eq, decide_eq_true_eq] at hids
  obtain ⟨hrerun, hfailing⟩ := hids
  have hreadable : ∀ id ∈ result.rerun, Rerun.Readable id.path ∧ id.line ≤ 4294967295 := by
    rw [hrerun]
    intro id hid
    rcases List.mem_pair.1 hid with rfl | rfl
    · exact ⟨hpath, by decide⟩
    · exact ⟨hpath, by decide⟩
  obtain ⟨ls, hparse, -, hperm, -, -⟩ := r.rerun_selects suite () false .inOrder hresult
    (by simp [hrerun]) (by decide) hreadable
  rw [hfailing] at hperm
  exact ⟨result, hresult, ls, hparse, hperm⟩

end Runner

end Rehearsal
