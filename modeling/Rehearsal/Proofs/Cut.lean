import Mathlib
import Rehearsal.Proofs.Binding
import Rehearsal.Proofs.Retry

/-!
# Cuts in scenarios

An attempt at a scenario begins with the hooks before it. Then the switches are read, and the steps
are gone through until one of them halts the attempt or the run is to stop. So the steps have one
cut: those before it were executed, and those after it are skipped
(`StepAccount.Sequel.exists_cut`).

`Cut.Divides` says this for an attempt, with what was asked for the executed steps and which
implementations that has played; every attempt in every run has such a cut (`Runner.attempts_cut`).
-/

namespace Rehearsal

/-- Does the request call user code for a step? -/
def Request.serves : Request → Bool
  | .hooks event => event.point == .beforeStep || event.point == .afterStep
  | .call _ _ => true
  | _ => false

namespace StepAccount

variable {t : Terms} {c : Bool}

/-- What was called for a step that was executed. A step that nothing or too much was found for is
not matched. -/
structure Served (o : RunOptions) (a : StepAccount) : Prop where
  found : ∃ f, a.start = some f ∧ f.step = a.step ∧
    ∀ m, a.result.matched = some m ↔ f.found = .ok (some m)
  unserved : o.dryRun = true ∨ a.result.matched = none → a.passage = .none ∧ a.call = none
  /-- The implementation is called unless the slot before the step has failed. -/
  served : ∀ m, o.dryRun = false → a.result.matched = some m → ∃ before after status,
    a.passage = ⟨[before], [after]⟩ ∧ before.event = ⟨.beforeStep, .step a.step, none⟩ ∧
      after.event = ⟨.afterStep, .step a.step, some status⟩ ∧
      a.call.isSome = before.isOk ∧ ∀ c ∈ a.call, c.found = m ∧ c.step = a.step

theorem Started.served {a : StepAccount} (h : a.Started t) : a.Served t.options := by
  cases h with
  | faulty calm =>
    exact ⟨⟨_, rfl, rfl, by simp [StepResult.skipped]⟩, fun _ => ⟨rfl, rfl⟩,
      by simp [StepResult.skipped]⟩
  | unknown calm =>
    exact ⟨⟨_, rfl, rfl, by simp [StepResult.skipped]⟩, fun _ => ⟨rfl, rfl⟩,
      by simp [StepResult.skipped]⟩
  | dry hdry calm =>
    refine ⟨⟨_, rfl, rfl, by simp⟩, fun _ => ⟨rfl, rfl⟩, fun m hreal => ?_⟩
    rw [hdry] at hreal
    cases hreal
  | @matched step background stopped m before after call hdry calm first opens calls own closes =>
    refine ⟨⟨_, rfl, rfl, by simp⟩, ?_, ?_⟩
    · rintro (hdry' | hnone)
      · rw [hdry] at hdry'
        cases hdry'
      · cases hnone
    · intro m' _ hm
      obtain rfl := Option.some.inj hm
      exact ⟨before, after, _, rfl, opens, closes, calls, own⟩

/-- The implementation of a match is called for the step it was found for. -/
theorem Served.exists_found {o : RunOptions} {a : StepAccount} {call : CallCue} (h : a.Served o)
    (hcall : a.call = some call) :
    ∃ f, a.start = some f ∧ f.step = call.step ∧ f.found = .ok (some call.found) := by
  obtain ⟨f, hstart, hstep, hfound⟩ := h.found
  have hcalled : ¬(a.passage = .none ∧ a.call = none) := fun hnone => by simp [hcall] at hnone
  obtain ⟨hdry, hmatched⟩ := not_or.1 (mt h.unserved hcalled)
  obtain ⟨m, hm⟩ := Option.ne_none_iff_exists'.1 hmatched
  obtain ⟨-, -, -, -, -, -, -, hown⟩ := h.served m (Bool.eq_false_iff.2 hdry) hm
  obtain ⟨rfl, hsame⟩ := hown call hcall
  exact ⟨f, hstart, hstep.trans hsame.symm, (hfound _).1 hm⟩

/-- Steps in sequence have one cut. Before it, only the last step may have halted the attempt; there
is nothing after it unless that has happened or the run is to stop. -/
theorem Sequel.exists_cut {as : List StepAccount} (h : Sequel t c as) :
    ∃ executed rest, as = executed ++ rest.map idle ∧ (∀ a ∈ executed, a.Started t) ∧
      (∀ a ∈ executed.dropLast, RunOptions.halts c a.result.status = false) ∧
      (rest ≠ [] → (∃ a ∈ executed.getLast?, RunOptions.halts c a.result.status = true) ∨
        t.stopped = true) := by
  induction h with
  | nil => exact ⟨[], [], rfl, by simp, by simp, by simp⟩
  | stopped rest hstop => exact ⟨[], rest, rfl, by simp, by simp, fun _ => .inr hstop⟩
  | @halted a rest hstart hhalt =>
    exact ⟨[a], rest, rfl, by simpa using hstart, by simp, fun _ => .inl ⟨a, rfl, hhalt⟩⟩
  | @further a as hstart hgo hrest ih =>
    obtain ⟨executed, rest, rfl, hstarted, hgoing, hend⟩ := ih
    refine ⟨a :: executed, rest, rfl, List.forall_mem_cons.2 ⟨hstart, hstarted⟩, ?_, ?_⟩
    · cases executed with
      | nil => simp
      | cons a' executed => exact List.forall_mem_cons.2 ⟨hgo, hgoing⟩
    · intro hne
      refine (hend hne).imp_left ?_
      rintro ⟨x, hx, hhalt⟩
      exact ⟨x, List.mem_getLast?_cons hx, hhalt⟩

end StepAccount

/-- An attempt at a scenario, cut where its switches are read and where its steps are: what was
asked before, the stage on which they were read, what was asked for the steps that were executed,
those that were not, and what was asked afterwards. -/
structure Cut (W : Type) where
  entry : List (Turn W)
  read : Stage W
  body : List (Turn W)
  executed : List StepAccount
  rest : List (Step × Bool)
  exit : List (Turn W)

namespace Cut

def switches (k : Cut W) : Control := k.read.context.control

/-- Have all hooks on entering succeeded? -/
def proceeds (r : Runner W) (k : Cut W) : Bool :=
  (k.entry.filterMap (·.cue? r)).all fun cue => cue.slot?.all (·.isOk)

def halts (k : Cut W) (x : StepResult) : Bool :=
  RunOptions.halts k.switches.continueAfterFailure x.status

/-- The attempt has the cut. -/
structure Divides (r : Runner W) (backgrounds : List Background) (p : PlannedScenario)
    (a : Attempt W) (k : Cut W) : Prop where
  turns : a.turns = k.entry ++ ⟨k.read, .control⟩ :: k.body ++ k.exit
  /-- The switches are read where the last turn of the entry has left them. -/
  found : ∃ x ∈ k.entry.getLast?, k.read.context = x.left r
  listed : k.executed.map (·.listed) ++ k.rest = p.scenario.listedSteps backgrounds
  results : a.result.steps =
    k.executed.map (·.result) ++ k.rest.map fun s => StepResult.skipped s.1 s.2
  going : ∀ x ∈ k.executed.dropLast, k.halts x.result = false
  halted : k.proceeds r = true → k.switches.skipReason = none → k.rest ≠ [] →
    (∃ x ∈ k.executed.getLast?, k.halts x.result = true) ∨
      ∃ y ∈ k.body, (y.deed r).isStopped = true
  barred : k.proceeds r = false ∨ k.switches.skipReason ≠ none → k.executed = []
  /-- Nothing shows between the entry and the exit but what belongs to the executed steps. -/
  cues : k.body.filterMap (·.cue? r) = k.executed.flatMap (·.cues)
  served : ∀ x ∈ k.executed, x.Served r.options
  /-- A call plays the implementation of the only definition that fits the step, with the arguments
  taken from its text. -/
  bound : ∀ s m step, ⟨s, .call m step⟩ ∈ k.body → ∃ d,
    r.registry.definitions.filter (Registry.fits step) = [d] ∧
      d.pattern.extract? step.text = some (.ok m.arguments) ∧
        ∀ t outcome captured,
          s.carryOut r.ownTarget (d.implementation ⟨step, m.arguments⟩) = (t, outcome, captured) →
            r.answer s (.call m step) = (t, ⟨outcome, captured⟩)
  quiet : ∀ y ∈ k.entry ++ k.exit, y.request.serves = false

/-- If the first step halts an attempt whatever its switches are, no other is executed. -/
theorem Divides.exists_executed {r : Runner W} {backgrounds : List Background}
    {p : PlannedScenario} {a : Attempt W} {k : Cut W} (h : k.Divides r backgrounds p a)
    {x : StepResult} {more : List StepResult} (hsteps : a.result.steps = x :: more)
    (hhalts : ∀ on, RunOptions.halts on x.status = true) :
    ∃ y, k.executed = [y] ∧ y.result = x ∧ k.rest.length = more.length := by
  have hresults := h.results.symm.trans hsteps
  match hexecuted : k.executed with
  | [] =>
    cases hrest : k.rest with
    | nil => simp [hexecuted, hrest] at hresults
    | cons s rest =>
      rw [hexecuted, hrest] at hresults
      obtain ⟨rfl, -⟩ := List.cons.inj hresults
      cases hhalts false
  | [y] =>
    rw [hexecuted] at hresults
    obtain ⟨hy, hrest⟩ := List.cons.inj hresults
    exact ⟨y, rfl, hy, by simpa using congrArg List.length hrest⟩
  | y :: z :: executed =>
    rw [hexecuted] at hresults
    have hgo := h.going y (by simp [hexecuted])
    have hy : y.result = x := (List.cons.inj hresults).1
    rw [halts, hy, hhalts] at hgo
    cases hgo

end Cut

namespace Runner

variable {r : Runner W} {body : List (Turn W)} {executed : List StepAccount} {s : Stage W}
  {m : StepMatch} {step : Step}

theorem exists_mem_cues_iff (hcues : body.filterMap (·.cue? r) = executed.flatMap (·.cues))
    {cue : Cue} : (∃ a ∈ executed, cue ∈ a.cues) ↔ ∃ x ∈ body, x.cue? r = some cue := by
  rw [← List.mem_flatMap, ← hcues, List.mem_filterMap]

/-- What is called for executed steps was found in the registry. -/
theorem find_of_call_mem (hcues : body.filterMap (·.cue? r) = executed.flatMap (·.cues))
    (hserved : ∀ a ∈ executed, a.Served r.options) (h : ⟨s, .call m step⟩ ∈ body) :
    r.registry.find step = .ok (some m) := by
  obtain ⟨a, ha, hcall⟩ := (exists_mem_cues_iff hcues).2 ⟨_, h, rfl⟩
  obtain ⟨f, hstart, hstep, hfound⟩ :=
    (hserved a ha).exists_found (StepAccount.call_mem_cues.1 hcall)
  obtain ⟨⟨s', q⟩, -, hasked⟩ :=
    (exists_mem_cues_iff hcues).1 ⟨a, ha, StepAccount.find_mem_cues.2 hstart⟩
  cases q <;> cases hasked
  obtain rfl : _ = step := hstep
  exact hfound

theorem exists_implementation_of_find (h : r.registry.find step = .ok (some m)) : ∃ d,
    r.registry.definitions.filter (Registry.fits step) = [d] ∧
      d.pattern.extract? step.text = some (.ok m.arguments) ∧
        ∀ t outcome captured,
          s.carryOut r.ownTarget (d.implementation ⟨step, m.arguments⟩) = (t, outcome, captured) →
            r.answer s (.call m step) = (t, ⟨outcome, captured⟩) := by
  obtain ⟨d, hfits, hplace, hextract⟩ := Registry.exists_of_find h
  refine ⟨d, hfits, hextract, fun t outcome captured hplay => ?_⟩
  rw [answer, Registry.call_of_getElem? hplace, hplay]

end Runner

def RunOptions.enterScenario (o : RunOptions) (p : PlannedScenario) : Work NodeEntry := do
  Work.enter .scenario [("scenario", .text p.scenario.name), ("tags", .texts p.tags.names)]
  Work.reset p.continueAfterFailure
  o.enterNode p.scenario.tags .beforeScenario (.scenario p.scenario)

theorem RunOptions.tryScenario_eq_bind (o : RunOptions) (backgrounds : List Background)
    (p : PlannedScenario) :
    o.tryScenario backgrounds p = (do
      let entry ← o.enterScenario p
      let control ← Work.control
      let listed := p.scenario.listedSteps backgrounds
      let steps ←
        (if entry.proceeds && control.skipReason.isNone then
          o.runSteps control.continueAfterFailure listed
        else pure (listed.map fun s => StepResult.skipped s.1 s.2))
      let status := o.bodyStatus entry.proceeds control.skipReason steps
      let report ← o.exitNode entry .afterScenario (.scenario p.scenario)
        (entry.report.weigh status)
      Work.leave
      return { p.outcome (report.weigh status) steps with
        message := report.message?.or control.skipReason
        captured := report.captured }) :=
  rfl

namespace Runner.Line

variable {r : Runner W} {c d : Context} {b : Bool} {xs : List (Turn W)}
  {backgrounds : List Background} {p : PlannedScenario}

/-- The entry into a scenario proceeds if all its hooks have succeeded, and serves no step. -/
theorem of_enterScenario {entry : NodeEntry}
    (h : r.Line (r.options.enterScenario p) c b xs entry d) :
    (∃ x ∈ xs.getLast?, d = x.left r) ∧
      entry.proceeds = (xs.filterMap (·.cue? r)).all (fun cue => cue.slot?.all (·.isOk)) ∧
      ∀ y ∈ xs, y.request.serves = false := by
  have hleft : ∀ x, xs.getLast? = some x → d = x.left r := fun x hx => h.eq_left hx
  obtain ⟨_, _, c₁, _, rfl, h₁, g₁⟩ := h.of_seq
  obtain ⟨s, rfl, -⟩ := h₁.of_request
  obtain ⟨_, _, c₂, slots, rfl, h₂, h₃⟩ := g₁.of_seq
  obtain ⟨s', rfl, -⟩ := h₂.of_request
  obtain ⟨last, hcourse, -⟩ := h₃.course
  obtain ⟨ss, hcues, -, -, hproceeds, -⟩ := Work.course_enterNode (.scenario p.scenario) rfl hcourse
  refine ⟨⟨_, List.getLast?_eq_some_getLast (List.cons_ne_nil _ _), hleft _
    (List.getLast?_eq_some_getLast (List.cons_ne_nil _ _))⟩, ?_, ?_⟩
  · rw [hproceeds, List.singleton_append, List.singleton_append, Turn.filterMap_cue?_cons,
      Turn.filterMap_cue?_cons, hcues]
    simp [Turn.cue?, Request.cue?, Cue.slot?, Function.comp_def]
  · have hslots : ∀ y ∈ slots, y.request.serves = false :=
      h₃.lacks (Work.lacks_enterNode rfl (fun _ => rfl) _ rfl)
    simpa [Request.serves] using hslots

/-- The steps of an attempt have one cut. -/
theorem exists_cut_runSteps {on : Bool} {ss : List (Step × Bool)} {results : List StepResult}
    (h : r.Line (r.options.runSteps on ss) c b xs results d) :
    ∃ (executed : List StepAccount) (rest : List (Step × Bool)),
      executed.map (·.listed) ++ rest = ss ∧
      results = executed.map (·.result) ++ rest.map (fun s => StepResult.skipped s.1 s.2) ∧
      (∀ a ∈ executed.dropLast, RunOptions.halts on a.result.status = false) ∧
      (rest ≠ [] → (∃ a ∈ executed.getLast?, RunOptions.halts on a.result.status = true) ∨
        ∃ y ∈ xs, (y.deed r).isStopped = true) ∧
      xs.filterMap (·.cue? r) = executed.flatMap (·.cues) ∧
      ∀ a ∈ executed, a.Served r.options := by
  -- whether the run is to stop in the end is known from the turns, since it is not taken back
  obtain ⟨last, hcourse, hlast⟩ := (h.mono (b := false) Bool.noConfusion).course
  obtain ⟨as, hsequel, rfl, rfl, hcues⟩ :=
    Work.course_runSteps (t := ⟨r.options, .others, last⟩) id hcourse
  obtain ⟨executed, rest, rfl, hstarted, hgoing, hend⟩ := hsequel.exists_cut
  refine ⟨executed, rest, ?_, ?_, hgoing, fun hne => (hend hne).imp_right fun hstop => ?_, ?_,
    fun a ha => (hstarted a ha).served⟩
  · rw [List.map_append, Work.listed_idle_steps]
  · rw [List.map_append, ← Work.map_skipped]
  · exact (hlast hstop).resolve_left Bool.false_ne_true
  · rw [← hcues, List.flatMap_append, Work.cues_idle_steps, List.append_nil]

/-- Every attempt has a cut. -/
theorem exists_cut {result : ScenarioResult} (poll : Option (Stage W))
    (h : r.Line (r.options.tryScenario backgrounds p) c b xs result d) :
    ∃ k : Cut W, k.Divides r backgrounds p ⟨xs, result, poll⟩ := by
  rw [RunOptions.tryScenario_eq_bind] at h
  obtain ⟨entry, node, c₁, _, rfl, h₁, g₁⟩ := h.of_seq
  obtain ⟨_, control, c₂, _, rfl, h₂, g₂⟩ := g₁.of_seq
  obtain ⟨read, rfl, hread, rfl, -⟩ := h₂.of_request
  obtain ⟨body, steps, c₃, _, rfl, h₃, g₃⟩ := g₂.of_seq
  obtain ⟨exit, report, c₄, _, rfl, h₄, g₄⟩ := g₃.of_seq
  obtain ⟨leaving, _, c₅, _, rfl, h₅, g₅⟩ := g₄.of_seq
  obtain ⟨rfl, rfl, rfl⟩ := g₅.of_pure
  obtain ⟨⟨x, hx, hleft⟩, hok, hentry⟩ := h₁.of_enterScenario
  have hproceeds : node.proceeds = Cut.proceeds r ⟨entry, read, [], [], [], []⟩ := hok
  have hexit : ∀ y ∈ exit ++ leaving, y.request.serves = false :=
    List.forall_mem_append.2 ⟨h₄.lacks (Work.lacks_exitNode rfl (fun _ => rfl) _ rfl),
      h₅.lacks (Work.lacks_request rfl)⟩
  have hturns : entry ++ ([⟨read, .control⟩] ++ (body ++ (exit ++ (leaving ++ [])))) =
      entry ++ ⟨read, .control⟩ :: body ++ (exit ++ leaving) := by simp
  have hquiet := List.forall_mem_append.2 ⟨hentry, hexit⟩
  rw [hproceeds] at h₃
  split at h₃
  · rename_i hrun
    rw [Bool.and_eq_true, Option.isNone_iff_eq_none] at hrun
    obtain ⟨executed, rest, hlisted, rfl, hgoing, hhalted, hcues, hserved⟩ :=
      h₃.exists_cut_runSteps
    refine ⟨⟨entry, read, body, executed, rest, exit ++ leaving⟩, hturns,
      ⟨x, hx, hread.trans hleft⟩, hlisted, rfl, hgoing, fun _ _ => hhalted, ?_, hcues, hserved,
      fun _ _ _ hmem => exists_implementation_of_find (find_of_call_mem hcues hserved hmem),
      hquiet⟩
    rintro (hfail | hskip)
    · exact Bool.noConfusion (hrun.1.symm.trans hfail)
    · exact absurd hrun.2 hskip
  · rename_i hbarred
    obtain ⟨rfl, rfl, -⟩ := h₃.of_pure
    refine ⟨⟨entry, read, [], [], p.scenario.listedSteps backgrounds, exit ++ leaving⟩, hturns,
      ⟨x, hx, hread.trans hleft⟩, rfl, rfl, by simp, fun hok hnone => ?_, fun _ => rfl, rfl,
      by simp, by simp, hquiet⟩
    exact absurd (Bool.and_eq_true_iff.2 ⟨hok, Option.isNone_iff_eq_none.2 hnone⟩) hbarred

end Runner.Line

namespace Runner

variable {r : Runner W} {suite : Suite} {world : W} {cancelled : Bool} {xs : List (Turn W)}
  {e : Ended W}

/-- However a run goes, the steps of every attempt at every scenario of its plan have one cut. -/
theorem attempts_cut (h : r.Goes suite world cancelled xs e) :
    ∃ result ss, e.report? = some result ∧
      r.Shows xs ((r.options.plan suite).features.flatMap PlannedFeature.scenarios)
        result.scenarios ss ∧
      ∀ s ∈ ss, ∃ attempts, s.Consists r attempts ∧
        ∀ a ∈ attempts, ∃ k : Cut W, k.Divides r s.backgrounds s.planned a := by
  obtain ⟨result, ss, hreport, hshows⟩ := h.exists_shows
  refine ⟨result, ss, hreport, hshows, fun s hs => ?_⟩
  obtain ⟨attempts, hconsists, -⟩ := ScenarioTrail.exists_attempts (hshows.goes s hs)
  refine ⟨attempts, hconsists, fun a ha => ?_⟩
  obtain ⟨c, d, hline⟩ := hconsists.goes a ha
  exact hline.exists_cut a.poll

/-- A slot without hooks succeeds. -/
theorem isOk_of_slot_nil {x : Turn W} {slot : SlotCue} (hcue : x.cue? r = some (.slot slot))
    (hnone : r.hooks.slot slot.event.point = []) : slot.isOk = true := by
  obtain ⟨s, q⟩ := x
  cases q <;> cases hcue
  dsimp only at hnone
  simp [SlotCue.isOk, SlotCue.call, SlotCall.isOk, answer, Hooks.call, hnone, Hooks.callAll,
    Stage.carryOut, Hooks.error?]

set_option maxRecDepth 8000 in
/-- The first of two steps succeeds, but a hook fails after it. -/
theorem steps_of_afterStep_fails {registry : Registry Unit} {m : StepMatch}
    (hfind : registry.find (.ofClass .context "a door") = .ok (some m))
    (hcall : registry.call m (.ofClass .context "a door") = .done .ok) :
    let r : Runner Unit := ⟨registry,
      Hooks.none.register .afterStep fun _ => .done (.error "boom" false), .default, "rehearsal"⟩
    let suite := Suite.single { Scenario.named "scenario" with
      steps := [.ofClass .context "a door", .ofClass .action "a wall"] }
    (r.run suite () false).report?.map (fun result => result.scenarios.map fun s =>
      (s.attempts, s.steps.map fun x => (x.matched, x.status))) =
        some [(1, [(some m, .error), (none, .skipped)])] := by
  intro r suite
  have hvalid : suite.violation? = none := by decide
  cbv at hfind hcall
  simp only [Runner.run, hvalid]
  cbv
  simp only [hfind]
  cbv
  simp only [hcall]
  cbv

/-- The first of two steps is called, and a hook fails after it, so the second is skipped. -/
theorem attempts_cut_door :
    let x : Registration Unit := ⟨.context, "a door", false, ⟨"doors", 1⟩, fun _ => .done .ok⟩
    let r : Runner Unit := ⟨Registry.empty.after [.definition x],
      Hooks.none.register .afterStep fun _ => .done (.error "boom" false), .default, "rehearsal"⟩
    let suite := Suite.single { Scenario.named "scenario" with
      steps := [.ofClass .context "a door", .ofClass .action "a wall"] }
    suite.violation? = none ∧
      ∃ (s : ScenarioTrail Unit) (a : Attempt Unit) (k : Cut Unit) (y : StepAccount),
        k.Divides r s.backgrounds s.planned a ∧ k.executed = [y] ∧ k.rest.length = 1 ∧
          y.result.status = .error ∧ y.call.isSome = true ∧
          ∃ before after, y.passage = ⟨[before], [after]⟩ ∧ before.isOk = true := by
  intro x r suite
  have hvalid : suite.violation? = none := by decide
  obtain ⟨m, hfind, -, -⟩ := Registry.exists_find_of_plain x rfl (by decide +kernel)
    (by decide) (by simp [x, PatternPiece.isBrace]) (.ofClass .context "a door") rfl rfl
  obtain ⟨result, ss, hreport, hshows, hall⟩ :=
    attempts_cut (.inOrder hvalid : r.Goes suite () false _ _)
  have hresult : (r.run suite () false).report?.map (fun result => result.scenarios.map fun s =>
      (s.attempts, s.steps.map fun x => (x.matched, x.status))) =
        some [(1, [(some m, .error), (none, .skipped)])] :=
    steps_of_afterStep_fails hfind (Registry.call_of_find_single hfind _)
  rw [hreport, Option.map_some, Option.some.injEq] at hresult
  obtain ⟨s, rfl, hs⟩ := hshows.exists_single hresult
  obtain ⟨hcount, hsteps⟩ := Prod.mk.inj hs
  obtain ⟨attempts, hconsists, hcuts⟩ := hall s List.mem_cons_self
  obtain ⟨a, ha, hsame⟩ := hconsists.exists_steps (by rw [hcount]; decide)
  obtain ⟨k, hk⟩ := hcuts a ha
  obtain ⟨first, more, hlist, hfirst, hmore⟩ := List.map_eq_cons_iff.1 hsteps
  obtain ⟨hmatched, hstatus⟩ := Prod.mk.inj hfirst
  obtain ⟨y, hexecuted, hy, hrest⟩ := hk.exists_executed (hsame.trans hlist)
    (fun _ => by rw [hstatus]; rfl)
  have hmem : y ∈ k.executed := hexecuted ▸ List.mem_singleton_self y
  obtain ⟨before, after, status, hpassage, hopens, -, hcalled, -⟩ :=
    (hk.served y hmem).served m rfl (by rw [hy]; exact hmatched)
  obtain ⟨x, -, hcue⟩ := (exists_mem_cues_iff hk.cues).1 ⟨y, hmem,
    (StepAccount.slot_mem_cues (s := before)).2 (by simp [hpassage, Passage.slots])⟩
  have hok : before.isOk = true := isOk_of_slot_nil hcue (by rw [hopens]; rfl)
  exact ⟨hvalid, s, a, k, y, hk, hexecuted,
    by rw [hrest, ← List.length_map, hmore, List.length_singleton],
    by rw [hy]; exact hstatus, hcalled.trans hok, before, after, hpassage, hok⟩

end Runner

end Rehearsal
