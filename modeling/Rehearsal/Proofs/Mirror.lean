import Mathlib.Data.List.Sort
import Mathlib.Data.String.Basic
import Rehearsal.Proofs.Account.Crew
import Rehearsal.Proofs.Selection

/-!
# Results mirror the documents

A label is what a node is known by, whatever happens in a run: names, keywords, tags, identities,
and the labels of the nodes in it. Documents, plans and results have labels. Those of a document
are read off its text: an outline stands for its rows, block by block, and the tags of a row are
those of all nodes around it and of its block.

Whether a node is started, skipped or never reached, its result has the label of its plan
(`FeatureAccount.Sound.label_eq`), and a plan has the labels of the documents
(`RunOptions.label_planFeature`). So nothing is lost, doubled or put elsewhere
(`Runner.result_mirrors`).
-/

namespace Rehearsal

structure ScenarioLabel where
  id : ScenarioId
  keyword : String
  name : String
  /-- The names of all tags that hold for the scenario. -/
  tags : List String
  deriving DecidableEq, Repr

structure RuleLabel where
  keyword : String
  name : String
  tags : List String
  line : Nat
  scenarios : List ScenarioLabel
  deriving DecidableEq, Repr

inductive ChildLabel where
  | scenario (s : ScenarioLabel)
  | rule (r : RuleLabel)
  deriving DecidableEq, Repr

structure FeatureLabel where
  keyword : String
  name : String
  path : String
  tags : List String
  line : Nat
  children : List ChildLabel
  deriving DecidableEq, Repr

/-! ### Labels of documents -/

/-- The label of a scenario of the document with the path, with the tags of all nodes around it. -/
def Scenario.label (path : String) (around : List TagSet) (s : Scenario) : ScenarioLabel :=
  ⟨⟨path, s.line, s.name⟩, s.keyword, s.name, (TagSet.effective (around ++ [s.tags])).names⟩

/-- The label of the scenario that a row of an outline stands for. -/
def Outline.rowLabel (path : String) (around : List TagSet) (o : Outline) (block : Nat)
    (e : Examples) (index : Nat) (row : TableRow) : ScenarioLabel :=
  let values := fun name => Table.lastPaired? name (e.table.pairs row)
  let name := rowName (Template.fill values o.name) block index e.name
  ⟨⟨path, row.line, name⟩, o.keyword, name,
    (TagSet.effective (around ++ [o.tags, e.tags])).names⟩

def Definition.labels (path : String) (around : List TagSet) : Definition → List ScenarioLabel
  | scenario s => [s.label path around]
  | outline o =>
    (o.examples.mapIdx fun block e => e.table.rows.mapIdx (o.rowLabel path around block e)).flatten

def Rule.label (f : Feature) (r : Rule) : RuleLabel :=
  ⟨r.keyword, r.name, r.tags.names, r.line,
    r.children.flatMap (·.labels f.path [f.tags, r.tags])⟩

def FeatureChild.labels (f : Feature) : FeatureChild → List ChildLabel
  | definition d => (d.labels f.path [f.tags]).map .scenario
  | rule r => [.rule (r.label f)]

def Feature.label (f : Feature) : FeatureLabel :=
  ⟨f.keyword, f.name, f.path, f.tags.names, f.line, f.children.flatMap (·.labels f)⟩

/-! ### Labels of plans -/

def PlannedScenario.label (p : PlannedScenario) : ScenarioLabel :=
  ⟨p.id, p.scenario.keyword, p.scenario.name, p.tags.names⟩

def PlannedRule.label (p : PlannedRule) : RuleLabel :=
  ⟨p.rule.keyword, p.rule.name, p.rule.tags.names, p.rule.line, p.scenarios.map (·.label)⟩

def PlannedChild.label : PlannedChild → ChildLabel
  | scenario p => .scenario p.label
  | rule p => .rule p.label

def PlannedFeature.label (p : PlannedFeature) : FeatureLabel :=
  ⟨p.feature.keyword, p.feature.name, p.feature.path, p.feature.tags.names, p.feature.line,
    p.children.map (·.label)⟩

/-! ### Labels of results -/

def ScenarioResult.label (s : ScenarioResult) : ScenarioLabel := ⟨s.id, s.keyword, s.name, s.tags⟩

def RuleResult.label (r : RuleResult) : RuleLabel :=
  ⟨r.keyword, r.name, r.tags, r.line, r.scenarios.map (·.label)⟩

def ChildResult.label : ChildResult → ChildLabel
  | scenario s => .scenario s.label
  | rule r => .rule r.label

def FeatureResult.label (f : FeatureResult) : FeatureLabel :=
  ⟨f.keyword, f.name, f.path, f.tags, f.line, f.children.map (·.label)⟩

namespace TagSet

/-- Tags are kept in the strict order of their names. -/
theorem pairwise_names_insertByName {keep : Tag → Tag → Tag}
    (hkeep : ∀ a b : Tag, a.name = b.name → (keep a b).name = a.name) (t : Tag) {ts : List Tag}
    (h : (ts.map (·.name)).Pairwise (· < ·)) :
    ((insertByName keep t ts).map (·.name)).Pairwise (· < ·) := by
  induction ts with
  | nil => exact List.pairwise_singleton _ _
  | cons a rest ih =>
    obtain ⟨hfirst, hrest⟩ := List.pairwise_cons.1 h
    unfold insertByName
    split
    · rename_i hlt
      refine .cons (fun n hn => ?_) h
      rcases List.mem_cons.1 hn with rfl | hn
      · exact hlt
      · exact lt_trans hlt (hfirst n hn)
    · rename_i hnot
      split
      · rename_i heq
        rw [List.map_cons, hkeep a t heq.symm]
        exact .cons hfirst hrest
      · rename_i hne
        refine .cons (fun n hn => ?_) (ih hrest)
        rcases (mem_names_insertByName keep hkeep t rest n).1 hn with rfl | hn
        · exact lt_of_le_of_ne (not_lt.1 hnot) (Ne.symm hne)
        · exact hfirst n hn

theorem pairwise_names_effective (lineage : List TagSet) :
    (effective lineage).names.Pairwise (· < ·) := by
  have hfold : ∀ (ts : List Tag) (s : TagSet), s.names.Pairwise (· < ·) →
      (ts.foldl replace s).names.Pairwise (· < ·) := by
    intro ts
    induction ts with
    | nil => exact fun s hs => hs
    | cons t rest ih =>
      exact fun s hs => ih _ (pairwise_names_insertByName (fun a b hab => hab.symm) t hs)
  exact hfold _ _ .nil

/-- Tags may be taken together before those around them are added. -/
theorem names_effective_append (around inner : List TagSet) :
    (effective (around ++ [effective inner])).names = (effective (around ++ inner)).names := by
  -- both are in strict order, so that it is enough to compare their members
  refine (pairwise_names_effective _).eq_of_mem_iff (pairwise_names_effective _) fun n => ?_
  rw [mem_names_effective, mem_names_effective]
  simp only [List.mem_append, List.mem_singleton, or_and_right, exists_or, exists_eq_left,
    mem_names_effective]

end TagSet

/-! ### Plans and documents -/

namespace Definition

/-- The scenario of a row has the label of the row. -/
theorem label_scenarioOf (path : String) (around : List TagSet) (o : Outline) (block : Nat)
    (e : Examples) (index : Nat) (row : TableRow) :
    (o.scenarioOf e block row index).label path around =
      o.rowLabel path around block e index row := by
  unfold Outline.scenarioOf Outline.rowLabel Scenario.label
  dsimp only
  rw [TagSet.names_effective_append]

theorem map_label (path : String) (around : List TagSet) (d : Definition) :
    d.scenarios.map (·.label path around) = d.labels path around := by
  cases d with
  | scenario s => rfl
  | outline o =>
    have hblock : ∀ block e, (o.scenariosOf e block).map (·.label path around) =
        e.table.rows.mapIdx (o.rowLabel path around block e) := by
      intro block e
      rw [Outline.scenariosOf, map_mapIdx]
      simp only [label_scenarioOf]
    rw [scenarios, Outline.expand, List.map_flatten, map_mapIdx, labels]
    simp only [hblock]

end Definition

namespace RunOptions

theorem map_label_planChild (o : RunOptions) (f : Feature) (c : FeatureChild) :
    (o.planChild f c).map (·.label) = c.labels f := by
  cases c with
  | definition d =>
    rw [planChild, FeatureChild.labels, ← d.map_label, List.map_map, List.map_map]
    rfl
  | rule r =>
    have hscenarios : (r.children.flatMap Definition.scenarios).map
        (fun s => (o.planScenario f.path [f.tags, r.tags] s).label) =
          r.children.flatMap (·.labels f.path [f.tags, r.tags]) := by
      rw [List.map_flatMap]
      exact congrArg List.flatten (List.map_congr_left fun d _ => d.map_label _ _)
    rw [planChild, FeatureChild.labels, List.map_singleton, PlannedChild.label, PlannedRule.label,
      List.map_map, Rule.label, ← hscenarios]
    rfl

/-- The plan of a document has the label of the document. -/
theorem label_planFeature (o : RunOptions) (f : Feature) : (o.planFeature f).label = f.label := by
  rw [planFeature, PlannedFeature.label, Feature.label, List.map_flatMap]
  simp only [map_label_planChild]

theorem map_label_plan (o : RunOptions) (s : Suite) :
    (o.plan s).features.map (·.label) = s.features.map (·.label) := by
  rw [plan, List.map_map]
  exact List.map_congr_left fun f _ => o.label_planFeature f

end RunOptions

/-! ### Results and plans -/

theorem PlannedScenario.label_skipped (backgrounds : List Background) (p : PlannedScenario) :
    (p.skipped backgrounds).label = p.label := rfl

theorem PlannedRule.label_skipped (backgrounds : List Background) (p : PlannedRule) :
    (p.skipped backgrounds).label = p.label := by
  rw [skipped, outcome, RuleResult.label, label, List.map_map]
  rfl

theorem PlannedChild.label_skipped (around : List Background) (p : PlannedChild) :
    (p.skipped around).label = p.label := by
  cases p with
  | scenario p => rfl
  | rule p => exact congrArg ChildLabel.rule (p.label_skipped _)

theorem PlannedFeature.label_skipped (p : PlannedFeature) : p.skipped.label = p.label := by
  rw [skipped, outcome, FeatureResult.label, label, List.map_map]
  exact congrArg (FeatureLabel.mk _ _ _ _ _) (List.map_congr_left fun c _ => c.label_skipped _)

variable {t : Terms} {e : Bool} {around : List Background}

/-- All attempts at a scenario have its label, and so has its result. -/
theorem ScenarioAccount.Sound.label_eq {a : ScenarioAccount} (h : a.Sound t e around) :
    a.result.label = a.planned.label := by
  cases h with
  | idle p hidle => rfl
  | tried he hselected hdiscarded hkept hbound hend =>
    rw [hkept.result]
    rfl

theorem RuleAccount.Sound.label_eq {a : RuleAccount} (h : a.Sound t e around) :
    a.result.label = a.planned.label := by
  cases h with
  | idle p hidle => exact p.label_skipped _
  | @visited p start passage scenarios he hselected hvisited hplanned hinside =>
    have hscenarios : (scenarios.map (·.result)).map (·.label) = p.scenarios.map (·.label) := by
      rw [← hplanned, List.map_map, List.map_map]
      exact List.map_congr_left fun s hs => (hinside s hs).label_eq
    exact congrArg (RuleLabel.mk _ _ _ _) hscenarios

theorem ChildAccount.label_eq {a : ChildAccount} (h : a.Sound t e around) :
    a.result.label = a.planned.label := by
  cases a with
  | scenario s => exact congrArg ChildLabel.scenario (ScenarioAccount.Sound.label_eq h)
  | rule r => exact congrArg ChildLabel.rule (RuleAccount.Sound.label_eq h)

theorem FeatureAccount.Sound.label_eq {a : FeatureAccount} (h : a.Sound t e) :
    a.result.label = a.planned.label := by
  cases h with
  | idle p hidle => exact p.label_skipped
  | @visited p start passage children he hselected hvisited hplanned hinside =>
    have hchildren : (children.map (·.result)).map (·.label) = p.children.map (·.label) := by
      rw [← hplanned, List.map_map, List.map_map]
      exact List.map_congr_left fun c hc => ChildAccount.label_eq (hinside c hc)
    exact congrArg (FeatureLabel.mk _ _ _ _ _) hchildren

theorem RunAccount.Sound.map_label {b : Bool} {p : Plan} {a : RunAccount} (h : a.Sound t b p) :
    a.result.features.map (·.label) = p.features.map (·.label) := by
  rw [h.features_result, ← h.planned, List.map_map, List.map_map]
  exact List.map_congr_left fun f hf => (h.inside f hf).label_eq

namespace Runner

/-- However a run ends, its result has the labels of its plan, and those are the labels of the
documents. -/
theorem result_mirrors (r : Runner W) (suite : Suite) (world : W) (cancelled : Bool) {e : Ended W}
    (h : r.Ends suite world cancelled e) (hvalid : suite.violation? = none) :
    ∃ result, e.report? = some result ∧
      result.features.map (·.label) = (r.options.plan suite).features.map (·.label) ∧
      result.features.map (·.label) = suite.features.map (·.label) := by
  obtain ⟨k, a, ha, hreport, -⟩ := h.exists_account hvalid
  exact ⟨a.result, hreport, ha.map_label, ha.map_label.trans (r.options.map_label_plan suite)⟩

/-- A hook fails before a feature that holds an outline with two rows and a rule. -/
theorem result_mirrors_outline :
    let r := ofHooks (Hooks.none.register .beforeFeature fun _ => .done (.error "boom" false))
    let outline := { Outline.named "row <n>" with
      examples := [.ofTable ⟨["n"], [⟨["one"], 5⟩, ⟨["two"], 6⟩], 4⟩] }
    let rule := { Rule.named "rule" with children := [.scenario (.named "scenario")] }
    let suite : Suite := ⟨[{ Feature.named "feature" with
      children := [.definition (.outline outline), .rule rule] }]⟩
    suite.violation? = none ∧ ∃ result, (r.run suite () false).report? = some result ∧
      result.features.map (·.label) = suite.features.map (·.label) := by
  intro r outline rule suite
  have hvalid : suite.violation? = none := by decide
  obtain ⟨result, hreport, -, hlabels⟩ := r.result_mirrors suite () false .inOrder hvalid
  exact ⟨hvalid, result, hreport, hlabels⟩

end Runner

end Rehearsal
