import Rehearsal.Proofs.Capture.Leaving

/-!
# Captured output

Every call of user code in a run is made for one node: for the run itself, for a feature, a rule or
a scenario with its tags, or for a step. What the result says of the output of a node is what the
calls made for it have left, one after the other (`RunAccount.Sound.shown`), and no call is left
out or made for two nodes, except that attempts which do not count are forgotten
(`RunAccount.Unfolds.allots`).
-/

namespace Rehearsal

/-! ### The nodes of a result -/

/-- A node as a result shows it, with what was captured of it. -/
structure NodeOutput where
  keyword : String
  title : String
  captured : Captured
  deriving DecidableEq

def StepResult.output (s : StepResult) : NodeOutput := ⟨s.keyword, s.text, s.captured⟩

def ScenarioResult.outputs (s : ScenarioResult) : List NodeOutput :=
  ⟨s.keyword, s.name, s.captured⟩ :: s.steps.map (·.output)

def RuleResult.outputs (r : RuleResult) : List NodeOutput :=
  ⟨r.keyword, r.name, r.captured⟩ :: r.scenarios.flatMap (·.outputs)

def ChildResult.outputs : ChildResult → List NodeOutput
  | scenario s => s.outputs
  | rule r => r.outputs

def FeatureResult.outputs (f : FeatureResult) : List NodeOutput :=
  ⟨f.keyword, f.name, f.captured⟩ :: f.children.flatMap (·.outputs)

/-- The nodes of a run, each before those in it. The run itself has no title. -/
def RunResult.outputs (r : RunResult) : List NodeOutput :=
  ⟨"", "", r.captured⟩ :: r.features.flatMap (·.outputs)

def Cue.isCall (c : Cue) : Bool := !c.isStart

/-- What some calls have left, in their order. -/
def Captured.gather (calls : List Cue) : Captured :=
  calls.foldr (fun cue rest => cue.captured ++ rest) .empty

namespace Captured

theorem gather_cons (cue : Cue) (calls : List Cue) :
    gather (cue :: calls) = cue.captured ++ gather calls := rfl

theorem gather_slots (ss : List SlotCue) :
    gather (ss.map .slot) = (HookReport.ofSlots ss).captured := by
  induction ss with
  | nil => rfl
  | cons s ss ih =>
    rw [List.map_cons, gather_cons, ih, ← List.singleton_append,
      HookReport.captured_ofSlots_append]
    congr 1
    exact ((HookReport.captured_add .empty s.call).trans (empty_append _)).symm

end Captured

/-- Is the call made for the node? It is if the node or one of its tags is told of it. -/
def HookScope.Owns (n : HookScope) : Cue → Prop
  | .slot s => s.event.scope = n ∨ ∃ tag ∈ n.tags, s.event.scope = .tag tag.name
  | .call c => n = .step c.step
  | .enter _ | .find _ => False

theorem RunOptions.scope_of_mem_entry {o : RunOptions} {n : HookScope} {e : HookEvent}
    (h : e ∈ o.entry n) : e.scope = n ∨ ∃ tag ∈ n.tags, e.scope = .tag tag.name := by
  unfold entry called at h
  split at h
  · cases h
  · rcases List.mem_append.1 h with h | h
    · obtain ⟨tag, htag, rfl⟩ := List.mem_map.1 h
      exact .inr ⟨tag, htag, rfl⟩
    · obtain rfl := List.mem_singleton.1 h
      exact .inl rfl

/-- The slots of a passage through a node are called for it. -/
theorem Passage.Crosses.owns {o : RunOptions} {n : HookScope} {status : Status} {p : Passage}
    (h : p.Crosses o n status) : ∀ s ∈ p.slots, n.Owns (.slot s) := by
  have hbefore : ∀ s ∈ p.before, n.Owns (.slot s) := fun s hs =>
    RunOptions.scope_of_mem_entry (h.entry.subset (List.mem_map_of_mem hs))
  refine List.forall_mem_append.2 ⟨hbefore, fun s hs => ?_⟩
  -- what is called on leaving has the scope of what was called on entering
  have hmem := List.mem_map_of_mem (f := SlotCue.event) hs
  rw [h.exit, List.mem_reverse] at hmem
  obtain ⟨s', hs', hevent⟩ := List.mem_map.1 hmem
  have hscope : s.event.scope = s'.event.scope := by
    rw [← hevent]
    rfl
  have howns := hbefore s' hs'
  rwa [HookScope.Owns, ← hscope] at howns

def HookScope.keyword : HookScope → String
  | .feature f => f.keyword
  | .rule r => r.keyword
  | .scenario s => s.keyword
  | .step s => s.keyword
  | _ => ""

def HookScope.title : HookScope → String
  | .feature f => f.name
  | .rule r => r.name
  | .scenario s => s.name
  | .step s => s.text
  | _ => ""

/-- A node with the calls made for it. -/
structure NodeCalls where
  scope : HookScope
  calls : List Cue

namespace NodeCalls

def output (n : NodeCalls) : NodeOutput := ⟨n.scope.keyword, n.scope.title, .gather n.calls⟩

def Owned (n : NodeCalls) : Prop := ∀ cue ∈ n.calls, n.scope.Owns cue

theorem owned_nil (n : HookScope) : Owned ⟨n, []⟩ := by simp [Owned]

end NodeCalls

/-- The step that a result is of, as far as the result tells. -/
def StepResult.step (s : StepResult) : Step :=
  ⟨s.keyword, s.stepType.getD .conjunction, s.stepType, s.text, none, s.line⟩

def StepAccount.node (a : StepAccount) : NodeCalls :=
  ⟨.step a.step, a.passage.around (a.call.toList.map .call)⟩

namespace ScenarioAccount

def node (a : ScenarioAccount) (calls : List Cue) : NodeCalls :=
  ⟨.scenario a.planned.scenario, calls⟩

/-- A scenario and its steps, with the calls made in the attempt that counts. If there was none,
nothing was called for them. -/
def nodes (a : ScenarioAccount) : List NodeCalls :=
  match a.kept with
  | some x => a.node (x.passage.slots.map .slot) :: x.steps.map (·.node)
  | none => a.node [] :: a.result.steps.map fun s => ⟨.step s.step, []⟩

end ScenarioAccount

def RuleAccount.nodes (a : RuleAccount) : List NodeCalls :=
  ⟨.rule a.planned.rule, a.passage.slots.map .slot⟩ :: a.scenarios.flatMap (·.nodes)

def ChildAccount.nodes : ChildAccount → List NodeCalls
  | scenario s => s.nodes
  | rule r => r.nodes

def FeatureAccount.nodes (a : FeatureAccount) : List NodeCalls :=
  ⟨.feature a.planned.feature, a.passage.slots.map .slot⟩ :: a.children.flatMap (·.nodes)

/-- The nodes of a run, each before those in it, with the calls made for them. -/
def RunAccount.nodes (a : RunAccount) : List NodeCalls :=
  ⟨.suite, a.passage.slots.map .slot⟩ :: a.features.flatMap (·.nodes)

variable {t : Terms} {e : Bool} {around : List Background}

/-! ### What a node shows is what was left for it -/

theorem CallCue.captured_verdict (c : CallCue) : c.verdict.captured = c.reply.captured := by
  unfold verdict
  split
  · rfl
  · split <;> rfl

theorem StepAccount.Started.captured {a : StepAccount} (h : a.Started t) :
    a.result.captured = .gather a.node.calls := by
  cases h with
  | faulty | unknown | dry => rfl
  | @matched step background stopped m before after call =>
    change before.reply.captured ++ (before.verdict call).captured ++ after.reply.captured = _
    cases call with
    | none => simp [node, Passage.around, Captured.gather, Cue.captured, SlotCue.verdict]
    | some c =>
      rw [SlotCue.verdict, c.captured_verdict]
      simp [node, Passage.around, Captured.gather, Cue.captured, Captured.append_assoc]

theorem StepAccount.Started.output {a : StepAccount} (h : a.Started t) :
    a.result.output = a.node.output := by
  rw [NodeCalls.output, ← h.captured]
  cases h <;> rfl

theorem StepAccount.Started.owned {a : StepAccount} (h : a.Started t) : a.node.Owned := by
  cases h with
  | faulty | unknown | dry => exact NodeCalls.owned_nil _
  | @matched step background stopped m before after call hdry calm first opens calls own closes =>
    have hbefore : HookScope.Owns (.step step) (.slot before) := .inl (by rw [opens])
    have hafter : HookScope.Owns (.step step) (.slot after) := .inl (by rw [closes])
    have hcall : ∀ c ∈ call, HookScope.Owns (.step step) (.call c) := fun c hc => by
      rw [HookScope.Owns, (own c hc).2]
    intro cue hcue
    rcases Passage.mem_around.1 hcue with ⟨s, hs, rfl⟩ | hcue
    · rcases List.mem_pair.1 hs with rfl | rfl
      · exact hbefore
      · exact hafter
    · obtain ⟨c, hc, rfl⟩ := List.mem_map.1 hcue
      exact hcall c (Option.mem_toList.1 hc)

theorem AttemptAccount.Sound.step {p : PlannedScenario} {a : AttemptAccount}
    (h : a.Sound t around p) {s : StepAccount} (hs : s ∈ a.steps) :
    s.result.output = s.node.output ∧ s.node.Owned := by
  rcases h.started_or_idle s hs with hstart | ⟨listed, rfl⟩
  · exact ⟨hstart.output, hstart.owned⟩
  · exact ⟨rfl, NodeCalls.owned_nil _⟩

theorem Visited.owned {b : Bool} {n : HookScope} {values : List (String × Datum)} {status : Status}
    {start : EnterCue} {p : Passage} (h : Visited t b n values status start p) :
    NodeCalls.Owned ⟨n, p.slots.map .slot⟩ := by
  rintro cue hcue
  obtain ⟨s, hs, rfl⟩ := List.mem_map.1 hcue
  exact h.crosses.owns s hs

/-- The results show of the nodes what the calls made for them have left. -/
structure Shown (outputs : List NodeOutput) (nodes : List NodeCalls) : Prop where
  gathered : outputs = nodes.map (·.output)
  owned : ∀ n ∈ nodes, n.Owned

namespace Shown

variable {outputs : List NodeOutput} {nodes : List NodeCalls}

theorem cons (h : Shown outputs nodes) {x : NodeOutput} {n : NodeCalls} (hx : x = n.output)
    (hn : n.Owned) : Shown (x :: outputs) (n :: nodes) where
  gathered := by rw [List.map_cons, hx, h.gathered]
  owned := List.forall_mem_cons.2 ⟨hn, h.owned⟩

theorem flatMap {xs : List α} {f : α → List NodeOutput} {g : α → List NodeCalls}
    (h : ∀ x ∈ xs, Shown (f x) (g x)) : Shown (xs.flatMap f) (xs.flatMap g) where
  gathered := by
    rw [List.map_flatMap]
    exact congrArg List.flatten (List.map_congr_left fun x hx => (h x hx).gathered)
  owned := fun n hn => by
    obtain ⟨x, hx, hn⟩ := List.mem_flatMap.1 hn
    exact (h x hx).owned n hn

theorem map {xs : List α} {f : α → NodeOutput} {g : α → NodeCalls}
    (h : ∀ x ∈ xs, f x = (g x).output ∧ (g x).Owned) : Shown (xs.map f) (xs.map g) where
  gathered := by
    rw [List.map_map]
    exact List.map_congr_left fun x hx => (h x hx).1
  owned := List.forall_mem_map.2 fun x hx => (h x hx).2

/-- A node that shows what the slots of a passage have left. -/
theorem passage (h : Shown outputs nodes) {n : HookScope} {p : Passage} {captured : Captured}
    (hcaptured : captured = (HookReport.ofSlots p.slots).captured)
    (howned : NodeCalls.Owned ⟨n, p.slots.map .slot⟩) :
    Shown (⟨n.keyword, n.title, captured⟩ :: outputs) (⟨n, p.slots.map .slot⟩ :: nodes) := by
  refine h.cons ?_ howned
  rw [hcaptured, ← Captured.gather_slots]
  rfl

end Shown

theorem ScenarioAccount.Sound.shown {a : ScenarioAccount} (h : a.Sound t e around) :
    Shown a.result.outputs a.nodes := by
  cases h with
  | idle p hidle =>
    have hsteps : Shown ((p.skipped around).steps.map (·.output))
        ((p.skipped around).steps.map fun s => ⟨.step s.step, []⟩) := by
      refine .map fun s hs => ⟨?_, NodeCalls.owned_nil _⟩
      obtain ⟨listed, -, rfl⟩ := List.mem_map.1 hs
      rfl
    exact hsteps.cons rfl (NodeCalls.owned_nil _)
  | @tried p discarded x he hselected hdiscarded hkept hbound hend =>
    have hsteps : Shown (x.result.steps.map (·.output)) (x.steps.map (·.node)) := by
      rw [hkept.steps_result, List.map_map]
      exact .map fun s hs => hkept.step hs
    rw [hkept.result] at hsteps ⊢
    exact hsteps.passage rfl hkept.visited.owned

theorem RuleAccount.Sound.shown {a : RuleAccount} (h : a.Sound t e around) :
    Shown a.result.outputs a.nodes := by
  have hinside :
      Shown (a.result.scenarios.flatMap (·.outputs)) (a.scenarios.flatMap (·.nodes)) := by
    rw [h.scenarios_result, List.flatMap_map]
    refine .flatMap fun s hs => ?_
    obtain ⟨e, backgrounds, hsound⟩ := h.scenario hs
    exact hsound.shown
  cases h with
  | idle => exact hinside.cons rfl (NodeCalls.owned_nil _)
  | visited he hselected hvisited => exact hinside.passage rfl hvisited.owned

theorem ChildAccount.shown {a : ChildAccount} (h : a.Sound t e around) :
    Shown a.result.outputs a.nodes := by
  cases a with
  | scenario s => exact ScenarioAccount.Sound.shown h
  | rule r => exact RuleAccount.Sound.shown h

theorem FeatureAccount.Sound.shown {a : FeatureAccount} (h : a.Sound t e) :
    Shown a.result.outputs a.nodes := by
  have hinside : Shown (a.result.children.flatMap (·.outputs)) (a.children.flatMap (·.nodes)) := by
    rw [h.children_result, List.flatMap_map]
    refine .flatMap fun c hc => ?_
    obtain ⟨e, around, hsound⟩ := h.child hc
    exact ChildAccount.shown hsound
  cases h with
  | idle => exact hinside.cons rfl (NodeCalls.owned_nil _)
  | visited he hselected hvisited => exact hinside.passage rfl hvisited.owned

/-- Every node of a run shows what the calls made for it have left. -/
theorem RunAccount.Sound.shown {b : Bool} {p : Plan} {a : RunAccount} (h : a.Sound t b p) :
    Shown a.result.outputs a.nodes := by
  have hinside : Shown (a.result.features.flatMap (·.outputs)) (a.features.flatMap (·.nodes)) := by
    rw [h.features_result, List.flatMap_map]
    exact .flatMap fun f hf => (h.inside f hf).shown
  refine hinside.passage ?_ h.visited.owned
  rw [h.result]
  rfl

/-! ### Every call is made for one node -/

/-- Each call among the cues is made for one of the nodes, unless it was made in an attempt that did
not count; and the calls of a node are in the order of the cues. -/
structure Allots (nodes : List NodeCalls) (discarded : List AttemptAccount) (cues : List Cue) :
    Prop where
  perm : (nodes.flatMap (·.calls) ++ discarded.flatMap fun x => x.cues.filter (·.isCall)).Perm
    (cues.filter (·.isCall))
  sublist : ∀ n ∈ nodes, n.calls.Sublist cues

namespace Allots

variable {nodes : List NodeCalls} {discarded : List AttemptAccount} {cues : List Cue}

/-- Nodes for which nothing is called. -/
theorem idle (h : ∀ n ∈ nodes, n.calls = []) : Allots nodes [] [] where
  perm := by
    rw [List.flatMap_eq_nil_iff.2 h]
    rfl
  sublist := fun n hn => by
    rw [h n hn]

theorem append (h : Allots nodes discarded cues) {nodes' : List NodeCalls}
    {discarded' : List AttemptAccount} {cues' : List Cue} (h' : Allots nodes' discarded' cues') :
    Allots (nodes ++ nodes') (discarded ++ discarded') (cues ++ cues') where
  perm := by
    rw [List.flatMap_append, List.flatMap_append, List.filter_append]
    refine .trans ?_ (h.perm.append h'.perm)
    rw [List.append_assoc, List.append_assoc]
    exact (List.perm_append_comm_assoc _ _ _).append_left _
  sublist := List.forall_mem_append.2
    ⟨fun n hn => (h.sublist n hn).trans (List.sublist_append_left _ _),
      fun n hn => (h'.sublist n hn).trans (List.sublist_append_right _ _)⟩

theorem flatMap {f : α → List NodeCalls} {g : α → List AttemptAccount} {c : α → List Cue}
    (h : ∀ x, Allots (f x) (g x) (c x)) (xs : List α) :
    Allots (xs.flatMap f) (xs.flatMap g) (xs.flatMap c) := by
  induction xs with
  | nil => exact idle (by simp)
  | cons x rest ih => exact (h x).append ih

/-- A start is no call. -/
theorem start (h : Allots nodes discarded cues) {cue : Cue} (hstart : cue.isStart = true) :
    Allots nodes discarded (cue :: cues) where
  perm := by
    rw [List.filter_cons_of_neg (by simp [Cue.isCall, hstart])]
    exact h.perm
  sublist := fun n hn => .cons _ (h.sublist n hn)

/-- The slots of a passage are called for the node that is passed through. -/
theorem passage (h : Allots nodes discarded cues) (n : HookScope) (p : Passage) :
    Allots (⟨n, p.slots.map .slot⟩ :: nodes) discarded (p.around cues) where
  perm := by
    have hcalls : ∀ ss : List SlotCue, (ss.map Cue.slot).filter (·.isCall) = ss.map .slot :=
      fun ss => List.filter_eq_self.2 (List.forall_mem_map.2 fun _ _ => rfl)
    rw [List.flatMap_cons, Passage.slots, List.map_append, Passage.around, List.filter_append,
      List.filter_append, hcalls, hcalls, List.append_assoc, List.append_assoc, List.append_assoc]
    exact (List.perm_append_comm.trans (h.perm.append_right _)).append_left _
  sublist := by
    refine List.forall_mem_cons.2 ⟨?_, fun n hn => (h.sublist n hn).trans (p.sublist_around _)⟩
    rw [Passage.slots, List.map_append]
    exact (List.sublist_append_left _ _).append (.refl _)

/-- The cues of a node that may have been started. -/
theorem node (h : Allots nodes discarded cues) (n : HookScope) (p : Passage)
    (start? : Option EnterCue) :
    Allots (⟨n, p.slots.map .slot⟩ :: nodes) discarded
      (start?.toList.map .enter ++ p.around cues) := by
  cases start? with
  | none => exact h.passage n p
  | some e => exact (h.passage n p).start rfl

end Allots

theorem StepAccount.allots (a : StepAccount) : Allots [a.node] [] a.cues where
  perm := by
    have hcalls : a.node.calls.filter (·.isCall) = a.node.calls := by
      refine List.filter_eq_self.2 fun cue hcue => ?_
      rcases Passage.mem_around.1 hcue with ⟨s, -, rfl⟩ | hcue
      · rfl
      · obtain ⟨c, -, rfl⟩ := List.mem_map.1 hcue
        rfl
    have hstart : (a.start.toList.map Cue.find).filter (·.isCall) = [] :=
      List.filter_eq_nil_iff.2 (List.forall_mem_map.2 fun _ _ => Bool.false_ne_true)
    have hfilter : a.cues.filter (·.isCall) = a.node.calls := by
      rw [cues, List.filter_append, hstart, List.nil_append]
      exact hcalls
    simp [hfilter]
  sublist := List.forall_mem_singleton.2 (List.sublist_append_right _ _)

theorem ScenarioAccount.allots (a : ScenarioAccount) : Allots a.nodes a.discarded a.cues := by
  have hdiscarded : Allots [] a.discarded (a.discarded.flatMap (·.cues)) :=
    ⟨by rw [List.filter_flatMap]; rfl, by simp⟩
  have hkept : Allots a.nodes [] (a.kept.toList.flatMap (·.cues)) := by
    cases hkept : a.kept with
    | none =>
      rw [nodes, hkept]
      exact .idle (List.forall_mem_cons.2 ⟨rfl, List.forall_mem_map.2 fun _ _ => rfl⟩)
    | some x =>
      have hsteps : Allots (x.steps.flatMap fun s => [s.node]) (x.steps.flatMap fun _ => [])
          (x.steps.flatMap (·.cues)) := Allots.flatMap (fun s => s.allots) x.steps
      have hnone : (x.steps.flatMap fun _ => ([] : List AttemptAccount)) = [] :=
        List.flatMap_eq_nil_iff.2 fun _ _ => rfl
      rw [hnone, ← List.map_eq_flatMap] at hsteps
      rw [nodes, hkept, Option.toList_some, List.flatMap_singleton, AttemptAccount.cues]
      exact (hsteps.passage _ _).start rfl
  have h := hdiscarded.append hkept
  rw [List.nil_append, List.append_nil, ← List.flatMap_append] at h
  exact h

theorem RuleAccount.allots (a : RuleAccount) :
    Allots a.nodes (a.scenarios.flatMap (·.discarded)) a.cues :=
  (Allots.flatMap (fun s => s.allots) a.scenarios).node _ a.passage a.start

theorem ChildAccount.allots (a : ChildAccount) :
    Allots a.nodes (a.scenarios.flatMap (·.discarded)) a.cues := by
  cases a with
  | scenario s =>
    rw [scenarios, List.flatMap_singleton]
    exact s.allots
  | rule r => exact r.allots

theorem FeatureAccount.allots (a : FeatureAccount) :
    Allots a.nodes (a.scenarios.flatMap (·.discarded)) a.cues := by
  rw [scenarios, List.flatMap_assoc]
  exact (Allots.flatMap (fun c => c.allots) a.children).node _ a.passage a.start

theorem RunAccount.allots (a : RunAccount) :
    Allots a.nodes (a.scenarios.flatMap (·.discarded)) a.cues := by
  rw [scenarios, List.flatMap_assoc]
  exact (Allots.flatMap (fun f => f.allots) a.features).node _ a.passage (some a.start)

/-- Every call of user code in a run is made for one node, also if features take turns. -/
theorem RunAccount.Unfolds.allots {a : RunAccount} {cues : List Cue} (h : a.Unfolds cues) :
    Allots a.nodes (a.scenarios.flatMap (·.discarded)) cues where
  perm := a.allots.perm.trans (h.perm.filter _)
  sublist := by
    refine List.forall_mem_cons.2 ⟨h.slots, fun n hn => ?_⟩
    obtain ⟨f, hf, hn⟩ := List.mem_flatMap.1 hn
    exact (f.allots.sublist n hn).trans (h.feature hf)

/-! ### Runs -/

/-- Output is neither lost nor duplicated nor put down to another node. Every call finds the output
streams empty, and carries what it has left itself, however it ends; every node of the result shows
what the calls made for it have left, one after the other; and every call is made for one node,
unless it belongs to an attempt that does not count. The background of a feature only repeats
steps of its scenarios. -/
theorem Runner.output_attributed {r : Runner W} {suite : Suite} {world : W} {cancelled : Bool}
    {xs : List (Turn W)} {e : Ended W} (h : r.Goes suite world cancelled xs e) :
    (∀ x ∈ xs, x.request.isCall = true → x.stage.context.output = .empty) ∧
    (∀ x ∈ xs, ∀ cue, x.cue? r = some cue → cue.captured = x.leaves r) ∧
    ∃ (k : Company) (a : RunAccount),
      a.Sound ⟨r.options, k, e.stage.isStopped⟩ cancelled (r.options.plan suite) ∧
      e.report? = some a.result ∧ a.Unfolds (xs.filterMap (·.cue? r)) ∧
      a.result.outputs = a.nodes.map (·.output) ∧ (∀ n ∈ a.nodes, n.Owned) ∧
      Allots a.nodes (a.scenarios.flatMap (·.discarded)) (xs.filterMap (·.cue? r)) ∧
      ∀ f ∈ a.result.features, ∀ s ∈ f.background, ∃ x ∈ f.scenarios, s ∈ x.steps := by
  obtain ⟨k, a, ha, hresult, hunfolds⟩ := h.exists_account
  refine ⟨fun x hx _ => h.output_found x hx, fun x _ cue hcue => x.captured_cue hcue, k, a, ha,
    Ended.report?_eq hresult, hunfolds, ha.shown.gathered, ha.shown.owned, hunfolds.allots, ?_⟩
  rw [ha.features_result, List.forall_mem_map]
  exact fun f hf s hs => (ha.inside f hf).background hs

/-- A run in which a hook panics that has written and logged before. -/
theorem Runner.output_attributed_panic :
    let r := ofHooks ((Hooks.none.register .beforeScenario fun _ =>
      .output (fun o => ⟨o.stdout ++ "in", o.stderr⟩)
        (.log ⟨.info, "app", [("message", "noted")]⟩ (.done (.panic (some "boom"))))).register
      .afterScenario fun _ => .output (fun o => ⟨o.stdout ++ "out", o.stderr⟩) (.done .ok))
    let suite := Suite.single (.named "scenario")
    ∃ a : RunAccount, (r.run suite () false).report? = some a.result ∧
      ∃ n ∈ a.nodes, n.output = ⟨"Scenario", "scenario", ⟨"inout", "", "INFO  app: noted\n"⟩⟩ := by
  intro r suite
  have hgoes : r.Goes suite () false _ (r.run suite () false) := .inOrder (by decide)
  obtain ⟨-, -, k, a, -, hreport, -, houtputs, -⟩ := output_attributed hgoes
  have hshown : (r.run suite () false).report?.any (fun result => decide
      (⟨"Scenario", "scenario", ⟨"inout", "", "INFO  app: noted\n"⟩⟩ ∈ result.outputs)) = true := by
    decide
  obtain ⟨result, hresult, hmem⟩ := (Option.any_eq_true _ _).1 hshown
  rw [hreport, Option.some.injEq] at hresult
  rw [decide_eq_true_eq, ← hresult, houtputs] at hmem
  obtain ⟨n, hn, hout⟩ := List.mem_map.1 hmem
  exact ⟨a, hreport, n, hn, hout⟩

end Rehearsal
