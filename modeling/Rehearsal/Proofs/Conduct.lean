import Rehearsal.Run

/-!
# Conduct

At every moment of a run some nodes of the plan are open, one inside the other. The runner enters
a node only where the plan has it, sets the switches as soon as a scenario is entered, calls user
code for the innermost open node only, leaves the nodes in the reverse order, and starts nothing
any more once it has been told that the run is to stop.

`Request.Leads` says where a request may be made and which nodes are open after it, and
`Work.Conducted` that this is so for all requests of some work, whatever the replies. There is one
lemma for each function of the runner.
-/

namespace Rehearsal

/-- A node of a plan, or the plan itself, as long as it is open. -/
inductive OpenNode where
  | suite (p : Plan)
  | feature (p : PlannedFeature)
  | rule (p : PlannedRule)
  | scenario (p : PlannedScenario)

namespace OpenNode

def level : OpenNode → ScopeLevel
  | suite _ => .suite
  | feature _ => .feature
  | rule _ => .rule
  | scenario _ => .scenario

def scope : OpenNode → HookScope
  | suite _ => .suite
  | feature p => .feature p.feature
  | rule p => .rule p.rule
  | scenario p => .scenario p.scenario

/-- The values that the runner stores when it enters the node. -/
def values : OpenNode → List (String × Datum)
  | suite _ => []
  | feature p => [("feature", .text p.feature.name)]
  | rule p => [("rule", .text p.rule.name)]
  | scenario p => [("scenario", .text p.scenario.name), ("tags", .texts p.tags.names)]

/-- Does the second node lie directly in the first? -/
def Holds : OpenNode → OpenNode → Prop
  | suite p, feature q => q ∈ p.features
  | feature p, rule q => .rule q ∈ p.children
  | feature p, scenario q => .scenario q ∈ p.children
  | rule p, scenario q => q ∈ p.scenarios
  | _, _ => False

/-- Are hooks of the scope called for the node? Those of its tags are, and in a scenario those of
the steps. -/
def Hears (n : OpenNode) : HookScope → Prop
  | .tag _ => True
  | .step _ => n.level = .scenario
  | scope => scope = n.scope

theorem hears_scope (n : OpenNode) : n.Hears n.scope := by
  cases n <;> rfl

theorem hears_tag (n : OpenNode) (name : String) : n.Hears (.tag name) := trivial

theorem hears_step (p : PlannedScenario) (step : Step) : (scenario p).Hears (.step step) := rfl

/-- The nodes lie one in the other, the innermost first, and the outermost is the whole plan. -/
def Linked (p : Plan) : List OpenNode → Prop
  | [] => True
  | [n] => n = suite p
  | n :: m :: rest => m.Holds n ∧ Linked p (m :: rest)

end OpenNode

/-- The nodes that are open, the innermost first, and whether the switches were set since the
innermost was entered. -/
structure Standing where
  nodes : List OpenNode
  steered : Bool

namespace Standing

/-- User code may be called for the node: it is the innermost of those above the floor, and in a
scenario the switches were set. -/
structure Ready (floor : Nat) (n : OpenNode) (s : Standing) : Prop where
  inside : ∃ nodes, s.nodes = n :: nodes ∧ floor ≤ nodes.length
  steered : n.level = .scenario → s.steered = true

/-- If the innermost node is a scenario, the switches were set. -/
def Steady (s : Standing) : Prop :=
  ∀ n ∈ s.nodes.head?, n.level = .scenario → s.steered = true

theorem Ready.steady {floor : Nat} {n : OpenNode} {s : Standing} (h : s.Ready floor n) :
    s.Steady := by
  obtain ⟨nodes, hnodes, -⟩ := h.inside
  intro m hm
  rw [hnodes, List.head?_cons, Option.mem_some_iff] at hm
  subst hm
  exact h.steered

end Standing

namespace Request

/-- Does the request start a node, an attempt at a scenario, or a step? -/
def isStart : Request → Bool
  | enter _ _ | find _ => true
  | _ => false

/-- Has it been said that the run is to stop, when the question was put the last time? Before the
reply it has if `heard` is true. -/
def tells (heard : Bool) : (q : Request) → q.Reply → Bool
  | .isStopped, reply => reply
  | _, _ => heard

/-- The request may be made in one standing and leads to the other. The nodes below the floor,
counted from the outside, are left alone. -/
inductive Leads (p : Plan) (floor : Nat) : Request → Standing → Standing → Prop
  | enter {level : ScopeLevel} {values : List (String × Datum)} {n : OpenNode}
      {nodes : List OpenNode} {steered : Bool} (hlevel : level = n.level)
      (hvalues : values = n.values) (hlinked : OpenNode.Linked p (n :: nodes)) :
      Leads p floor (.enter level values) ⟨nodes, steered⟩ ⟨n :: nodes, false⟩
  | leave {n : OpenNode} {nodes : List OpenNode} {steered : Bool}
      (hready : Standing.Ready floor n ⟨n :: nodes, steered⟩) :
      Leads p floor .leave ⟨n :: nodes, steered⟩ ⟨nodes, false⟩
  | reset {on : Bool} {q : PlannedScenario} {nodes : List OpenNode}
      (hon : on = q.continueAfterFailure) (hfloor : floor ≤ nodes.length) :
      Leads p floor (.reset on) ⟨.scenario q :: nodes, false⟩ ⟨.scenario q :: nodes, true⟩
  | control {s : Standing} {q : PlannedScenario} (hready : s.Ready floor (.scenario q)) :
      Leads p floor .control s s
  | isStopped {s : Standing} (hsteady : s.Steady) : Leads p floor .isStopped s s
  | stop {s : Standing} (hsteady : s.Steady) : Leads p floor .stop s s
  | find {step : Step} {s : Standing} {q : PlannedScenario}
      (hready : s.Ready floor (.scenario q)) : Leads p floor (.find step) s s
  | hooks {event : HookEvent} {n : OpenNode} {s : Standing} (hready : s.Ready floor n)
      (hhears : n.Hears event.scope) : Leads p floor (.hooks event) s s
  | call {m : StepMatch} {step : Step} {s : Standing} {q : PlannedScenario}
      (hready : s.Ready floor (.scenario q)) : Leads p floor (.call m step) s s

end Request

namespace OpenNode

variable {p : Plan} {n : OpenNode} {nodes : List OpenNode}

theorem level_of_suite_holds (h : (suite p).Holds n) : n.level = .feature := by
  cases n with
  | feature q => rfl
  | suite p => exact h.elim
  | rule q => exact h.elim
  | scenario q => exact h.elim

theorem linked_suite (p : Plan) : Linked p [suite p] := rfl

theorem Linked.cons {m : OpenNode} (h : Linked p (m :: nodes)) (hholds : m.Holds n) :
    Linked p (n :: m :: nodes) :=
  ⟨hholds, h⟩

theorem Linked.tail (h : Linked p (n :: nodes)) : Linked p nodes := by
  cases nodes with
  | nil => trivial
  | cons m rest => exact h.2

/-- A node lies in no scenario. -/
theorem Linked.steady (h : Linked p (n :: nodes)) (steered : Bool) :
    Standing.Steady ⟨nodes, steered⟩ := by
  intro m hm hlevel
  cases nodes with
  | nil => cases hm
  | cons m' rest =>
    obtain rfl := Option.mem_some_iff.1 hm
    obtain ⟨hholds, -⟩ := h
    cases m' <;> cases hlevel
    cases n <;> cases hholds

end OpenNode

/-- A request leaves the open nodes one in the other. -/
theorem Request.Leads.linked {p : Plan} {floor : Nat} {q : Request} {s t : Standing}
    (h : q.Leads p floor s t) (hlinked : OpenNode.Linked p s.nodes) :
    OpenNode.Linked p t.nodes := by
  cases h with
  | enter hlevel hvalues hnode => exact hnode
  | leave hready => exact hlinked.tail
  | reset | control | isStopped | stop | find | hooks | call => exact hlinked

namespace Work

/-- All requests of the work are made as the runner makes them, and lead from one standing to the
other. Nothing is started once it has been said that the run is to stop; before the work it has if
`heard` is true. -/
inductive Conducted (p : Plan) (floor : Nat) : Work α → Bool → Standing → Standing → Prop
  | done (a : α) (heard : Bool) (s : Standing) : Conducted p floor (.done a) heard s s
  | ask {q : Request} {next : q.Reply → Work α} {heard : Bool} {s s' t : Standing}
      (hleads : q.Leads p floor s s') (hfresh : q.isStart = true → heard = false)
      (rest : ∀ reply, Conducted p floor (next reply) (q.tells heard reply) s' t) :
      Conducted p floor (.ask q next) heard s t

variable {p : Plan} {floor : Nat} {heard : Bool}

theorem Conducted.bind {w : Work α} {k : α → Work β} {s t u : Standing}
    (hw : w.Conducted p floor heard s t)
    (hk : ∀ a later, (k a).Conducted p floor later t u) :
    (w.bind k).Conducted p floor heard s u := by
  induction hw with
  | done a heard s => exact hk a heard
  | ask hleads hfresh rest ih => exact .ask hleads hfresh fun reply => ih reply hk

/-- `Conducted.bind` for pieces of work joined in the usual notation. -/
theorem Conducted.seq {w : Work α} {k : α → Work β} {s t u : Standing}
    (hw : w.Conducted p floor heard s t)
    (hk : ∀ a later, (k a).Conducted p floor later t u) :
    (w >>= k).Conducted p floor heard s u :=
  hw.bind hk

theorem conducted_pure (a : α) (s : Standing) : (pure a : Work α).Conducted p floor heard s s :=
  .done a heard s

theorem conducted_request {q : Request} {s t : Standing} (hleads : q.Leads p floor s t)
    (hfresh : q.isStart = true → heard = false) : (request q).Conducted p floor heard s t :=
  .ask hleads hfresh fun reply => .done reply _ t

/-- The question whether the run is to stop, with what comes after either reply. -/
theorem conducted_poll {k : Bool → Work α} {s t : Standing} (hsteady : s.Steady)
    (hstop : (k true).Conducted p floor true s t) (hgo : (k false).Conducted p floor false s t) :
    (isStopped >>= k).Conducted p floor heard s t := by
  refine .ask (.isStopped hsteady) Bool.noConfusion fun reply => ?_
  cases reply with
  | true => exact hstop
  | false => exact hgo

theorem conducted_stop {s : Standing} (hsteady : s.Steady) : stop.Conducted p floor heard s s :=
  conducted_request (.stop hsteady) Bool.noConfusion

variable {o : RunOptions} {s : Standing} {n : OpenNode}

theorem conducted_slot (hs : s.Ready floor n) (point : HookPoint) {scope : HookScope}
    (hhears : n.Hears scope) (status : Option Status) :
    (o.slot point scope status).Conducted p floor heard s s := by
  unfold RunOptions.slot
  split
  · exact conducted_pure _ s
  · refine (conducted_request (.hooks hs hhears) Bool.noConfusion).seq fun reply _ => ?_
    dsimp only
    split
    · split
      · exact (conducted_stop hs.steady).seq fun _ _ => conducted_pure _ s
      · exact conducted_pure _ s
    · exact conducted_pure _ s

theorem conducted_enterTags (hs : s.Ready floor n) (e : NodeEntry) (tags : List Tag) :
    (o.enterTags e tags).Conducted p floor heard s s := by
  induction tags generalizing e heard with
  | nil => exact conducted_pure e s
  | cons tag rest ih =>
    refine (conducted_slot hs _ (n.hears_tag _) _).seq fun call _ => ?_
    dsimp only
    split
    · exact ih _
    · exact conducted_pure _ s

theorem conducted_enterNode (hs : s.Ready floor n) (tags : TagSet) (point : HookPoint) :
    (o.enterNode tags point n.scope).Conducted p floor heard s s := by
  refine (conducted_enterTags hs _ _).seq fun e _ => ?_
  split
  · exact (conducted_slot hs _ n.hears_scope _).seq fun call _ => conducted_pure _ s
  · exact conducted_pure _ s

theorem conducted_exitTags (hs : s.Ready floor n) (status : Status) (report : HookReport)
    (tags : List String) : (o.exitTags status report tags).Conducted p floor heard s s := by
  induction tags generalizing report heard with
  | nil => exact conducted_pure report s
  | cons tag rest ih => exact (conducted_slot hs _ (n.hears_tag _) _).seq fun call _ => ih _

theorem conducted_exitNode (hs : s.Ready floor n) (e : NodeEntry) (point : HookPoint)
    (status : Status) : (o.exitNode e point n.scope status).Conducted p floor heard s s := by
  unfold RunOptions.exitNode
  split
  · exact (conducted_slot hs _ n.hears_scope _).seq fun call _ => conducted_exitTags hs _ _ _
  · exact conducted_exitTags hs _ _ _

section Steps

variable {q : PlannedScenario} (hs : s.Ready floor (.scenario q))
include hs

theorem conducted_callStep (m : StepMatch) (step : Step) :
    (RunOptions.callStep m step).Conducted p floor heard s s := by
  refine (conducted_request (.call hs) Bool.noConfusion).seq fun reply _ => ?_
  split
  · exact conducted_pure _ s
  · split
    · exact (conducted_stop hs.steady).seq fun _ _ => conducted_pure _ s
    · exact conducted_pure _ s

theorem conducted_runMatched (m : StepMatch) (step : Step) (background : Bool) :
    (o.runMatched m step background).Conducted p floor heard s s := by
  refine (conducted_slot hs _ (OpenNode.hears_step q step) _).seq fun before _ => ?_
  refine Conducted.seq (t := s) ?_ fun verdict _ =>
    (conducted_slot hs _ (OpenNode.hears_step q step) _).seq fun after _ => conducted_pure _ s
  split
  · exact conducted_callStep hs m step
  · exact conducted_pure _ s

theorem conducted_runStep (step : Step) (background : Bool) :
    (o.runStep step background).Conducted p floor false s s := by
  refine (conducted_request (.find hs) fun _ => rfl).seq fun found _ => ?_
  split
  · exact conducted_pure _ s
  · exact conducted_pure _ s
  · split
    · exact conducted_pure _ s
    · exact conducted_runMatched hs _ step background

theorem conducted_runSteps (continueAfterFailure : Bool) (steps : List (Step × Bool)) :
    (o.runSteps continueAfterFailure steps).Conducted p floor heard s s := by
  induction steps generalizing heard with
  | nil => exact conducted_pure _ s
  | cons step rest ih =>
    refine conducted_poll hs.steady (conducted_pure _ s) ?_
    refine (conducted_runStep hs _ _).seq fun result _ => ?_
    split
    · exact conducted_pure _ s
    · exact ih.seq fun results _ => conducted_pure _ s

end Steps

section Nodes

variable {nodes : List OpenNode} (hfloor : floor ≤ nodes.length)
include hfloor

section Scenario

variable {q : PlannedScenario} (hlinked : OpenNode.Linked p (.scenario q :: nodes))
include hlinked

theorem conducted_tryScenario (backgrounds : List Background) :
    (o.tryScenario backgrounds q).Conducted p floor false ⟨nodes, false⟩ ⟨nodes, false⟩ := by
  -- user code is called between the setting of the switches and the leaving only
  let inside : Standing := ⟨.scenario q :: nodes, true⟩
  have hready : inside.Ready floor (.scenario q) := ⟨⟨nodes, rfl, hfloor⟩, fun _ => rfl⟩
  refine (conducted_request (.enter rfl rfl hlinked) fun _ => rfl).seq fun _ _ => ?_
  refine (conducted_request (.reset rfl hfloor) Bool.noConfusion).seq fun _ _ => ?_
  refine (conducted_enterNode hready _ _).seq fun entry _ => ?_
  refine (conducted_request (.control hready) Bool.noConfusion).seq fun control _ => ?_
  refine Conducted.seq (t := inside) ?_ fun steps _ => ?_
  · split
    · exact conducted_runSteps hready _ _
    · exact conducted_pure _ inside
  · refine (conducted_exitNode hready _ _ _).seq fun report _ => ?_
    refine (conducted_request (.leave hready) Bool.noConfusion).seq fun _ _ => ?_
    exact conducted_pure _ _

theorem conducted_tryAgain (backgrounds : List Background) (before left : Nat) :
    (o.tryAgain backgrounds q before left).Conducted p floor false ⟨nodes, false⟩
      ⟨nodes, false⟩ := by
  induction left generalizing before with
  | zero =>
    exact (conducted_tryScenario hfloor hlinked backgrounds).seq fun result _ =>
      conducted_pure _ _
  | succ left ih =>
    refine (conducted_tryScenario hfloor hlinked backgrounds).seq fun result _ => ?_
    split
    · exact conducted_poll (hlinked.steady false) (conducted_pure _ _) (ih (before + 1))
    · exact conducted_pure _ _

theorem conducted_runScenario (backgrounds : List Background) :
    (o.runScenario backgrounds q).Conducted p floor heard ⟨nodes, false⟩ ⟨nodes, false⟩ := by
  have hsteady := hlinked.steady false
  unfold RunOptions.runScenario
  split
  · refine conducted_poll hsteady (conducted_pure _ _) ?_
    refine (conducted_tryAgain hfloor hlinked backgrounds _ _).seq fun result _ => ?_
    split
    · exact (conducted_stop hsteady).seq fun _ _ => conducted_pure _ _
    · exact conducted_pure _ _
  · exact conducted_pure _ _

end Scenario

theorem conducted_runScenarios (backgrounds : List Background) {qs : List PlannedScenario}
    (hlinked : ∀ q ∈ qs, OpenNode.Linked p (.scenario q :: nodes)) :
    (o.runScenarios backgrounds qs).Conducted p floor heard ⟨nodes, false⟩ ⟨nodes, false⟩ := by
  induction qs generalizing heard with
  | nil => exact conducted_pure _ _
  | cons q rest ih =>
    obtain ⟨hq, hrest⟩ := List.forall_mem_cons.1 hlinked
    refine (conducted_runScenario hfloor hq backgrounds).seq fun result _ => ?_
    exact (ih hrest).seq fun results _ => conducted_pure _ _

/-- A node other than a scenario is entered and left, and what lies in it is gone through in
between. -/
theorem conducted_node (hlevel : n.level ≠ .scenario) (hlinked : OpenNode.Linked p (n :: nodes))
    {tags : TagSet} {before after : HookPoint} {inside : NodeEntry → Work α}
    {status : NodeEntry → α → Status} {result : α → HookReport → β}
    (hinside : ∀ e later,
      (inside e).Conducted p floor later ⟨n :: nodes, false⟩ ⟨n :: nodes, false⟩) :
    (do
      Work.enter n.level n.values
      let entry ← o.enterNode tags before n.scope
      let parts ← inside entry
      let report ← o.exitNode entry after n.scope (status entry parts)
      Work.leave
      return result parts report : Work β).Conducted p floor false ⟨nodes, false⟩
        ⟨nodes, false⟩ := by
  have hready : Standing.Ready floor n ⟨n :: nodes, false⟩ :=
    ⟨⟨nodes, rfl, hfloor⟩, fun h => absurd h hlevel⟩
  refine (conducted_request (.enter rfl rfl hlinked) fun _ => rfl).seq fun _ _ => ?_
  refine (conducted_enterNode hready _ _).seq fun entry _ => ?_
  refine (hinside entry _).seq fun parts _ => ?_
  refine (conducted_exitNode hready _ _ _).seq fun report _ => ?_
  exact (conducted_request (.leave hready) Bool.noConfusion).seq fun _ _ => conducted_pure _ _

theorem conducted_runRule (around : List Background) {q : PlannedRule}
    (hlinked : OpenNode.Linked p (.rule q :: nodes)) :
    (o.runRule around q).Conducted p floor heard ⟨nodes, false⟩ ⟨nodes, false⟩ := by
  unfold RunOptions.runRule
  split
  · refine conducted_poll (hlinked.steady false) (conducted_pure _ _) ?_
    refine conducted_node hfloor (n := .rule q) ScopeLevel.noConfusion hlinked fun entry _ => ?_
    split
    · exact conducted_runScenarios (Nat.le_succ_of_le hfloor) _ fun s hs => hlinked.cons hs
    · exact conducted_pure _ _
  · exact conducted_pure _ _

section Children

variable {f : PlannedFeature} (hlinked : OpenNode.Linked p (.feature f :: nodes))
include hlinked

theorem conducted_runChild (around : List Background) {c : PlannedChild} (hc : c ∈ f.children) :
    (o.runChild around c).Conducted p floor heard ⟨.feature f :: nodes, false⟩
      ⟨.feature f :: nodes, false⟩ := by
  have hbelow : floor ≤ (.feature f :: nodes).length := Nat.le_succ_of_le hfloor
  cases c with
  | scenario q =>
    exact (conducted_runScenario hbelow (hlinked.cons hc) around).seq fun _ _ => conducted_pure _ _
  | rule q =>
    exact (conducted_runRule hbelow around (hlinked.cons hc)).seq fun _ _ => conducted_pure _ _

theorem conducted_runChildren (around : List Background) {cs : List PlannedChild}
    (hcs : ∀ c ∈ cs, c ∈ f.children) :
    (o.runChildren around cs).Conducted p floor heard ⟨.feature f :: nodes, false⟩
      ⟨.feature f :: nodes, false⟩ := by
  induction cs generalizing heard with
  | nil => exact conducted_pure _ _
  | cons c rest ih =>
    obtain ⟨hc, hrest⟩ := List.forall_mem_cons.1 hcs
    refine (conducted_runChild hfloor hlinked around hc).seq fun result _ => ?_
    exact (ih hrest).seq fun results _ => conducted_pure _ _

/-- The work on a feature leaves every node that it enters. -/
theorem conducted_runFeature (o : RunOptions) :
    (o.runFeature f).Conducted p floor heard ⟨nodes, false⟩ ⟨nodes, false⟩ := by
  unfold RunOptions.runFeature
  split
  · refine conducted_poll (hlinked.steady false) (conducted_pure _ _) ?_
    refine conducted_node hfloor (n := .feature f) ScopeLevel.noConfusion hlinked fun entry _ => ?_
    split
    · exact conducted_runChildren hfloor hlinked _ fun c hc => hc
    · exact conducted_pure _ _
  · exact conducted_pure _ _

end Children

end Nodes

theorem conducted_runFeatures {qs : List PlannedFeature} (hqs : ∀ q ∈ qs, q ∈ p.features) :
    (o.runFeatures qs).Conducted p 0 heard ⟨[.suite p], false⟩ ⟨[.suite p], false⟩ := by
  induction qs generalizing heard with
  | nil => exact conducted_pure _ _
  | cons q rest ih =>
    obtain ⟨hq, hrest⟩ := List.forall_mem_cons.1 hqs
    have hlinked : OpenNode.Linked p [.feature q, .suite p] := (OpenNode.linked_suite p).cons hq
    refine (conducted_runFeature (Nat.zero_le _) hlinked o).seq fun result _ => ?_
    exact (ih hrest).seq fun results _ => conducted_pure _ _

theorem ready_suite (p : Plan) : Standing.Ready 0 (.suite p) ⟨[.suite p], false⟩ :=
  ⟨⟨[], rfl, Nat.le_refl 0⟩, ScopeLevel.noConfusion⟩

theorem conducted_openRun (o : RunOptions) (p : Plan) :
    o.openRun.Conducted p 0 false ⟨[], false⟩ ⟨[.suite p], false⟩ := by
  refine (conducted_request (.enter rfl rfl (OpenNode.linked_suite p)) fun _ => rfl).seq
    fun _ _ => ?_
  exact (conducted_slot (ready_suite p) _ (OpenNode.suite p).hears_scope _).seq fun call _ =>
    conducted_pure _ _

theorem conducted_closeRun (o : RunOptions) (p : Plan) (opening : Opening)
    (fs : List FeatureResult) :
    (o.closeRun opening fs).Conducted p 0 heard ⟨[.suite p], false⟩ ⟨[], false⟩ := by
  refine (conducted_slot (ready_suite p) _ (OpenNode.suite p).hears_scope _).seq fun call _ => ?_
  refine (conducted_request (.leave (ready_suite p)) Bool.noConfusion).seq fun _ _ => ?_
  have hsteady : Standing.Steady ⟨[], false⟩ := fun n hn => by cases hn
  refine (conducted_request (.isStopped hsteady) Bool.noConfusion).seq fun cancelled _ => ?_
  dsimp only
  split <;> exact conducted_pure _ _

/-- A run goes through its plan as the plan has it, and leaves every node that it enters. -/
theorem conducted_runPlan (o : RunOptions) (p : Plan) :
    (o.runPlan p).Conducted p 0 false ⟨[], false⟩ ⟨[], false⟩ := by
  refine (conducted_openRun o p).seq fun opening _ => ?_
  refine Conducted.seq (t := ⟨[.suite p], false⟩) ?_ fun fs _ => conducted_closeRun o p opening fs
  split
  · exact conducted_pure _ _
  · exact conducted_runFeatures fun q hq => hq

end Work

end Rehearsal
