import Rehearsal.Proofs.Account.Run

/-!
# Hooks nest

`Nested o k (.node n) cues` says that the cues are those of a whole node: its start, the
slots on entering it, the nodes in it if these have succeeded, and the slots on leaving it.
`unclosed` reads the same cues from left to right with a stack of the slots that still have
to be closed; it accepts what is nested and ends with the stack it began with.

The grammar is derived from the accounts, and all that is said about the order of cues is
proved by induction on it.
-/

namespace Rehearsal

namespace HookScope

/-- Does the second node lie directly in the first? -/
def holds : HookScope → HookScope → Bool
  | suite, feature _ | feature _, rule _ | feature _, scenario _ | rule _, scenario _
  | scenario _, step _ => true
  | _, _ => false

end HookScope

/-- A stretch of a run: a node, or what lies in one. -/
inductive Stretch where
  | node (n : HookScope)
  | within (n : HookScope)

/-- The cues are those of the stretch. Every node is started when the run is not to stop,
except the suite. -/
inductive Nested (o : RunOptions) (k : Company) : Stretch → List Cue → Prop where
  /-- A step for which nothing is called. -/
  | bare {f : FindCue} (calm : k.Lets false f.stopped)
      (hfound : o.dryRun = true ∨ ∀ m, f.found ≠ .ok (some m)) :
      Nested o k (.node (.step f.step)) [.find f]
  | step {f : FindCue} {m : StepMatch} {p : Passage} {call : Option CallCue} {status : Status}
      (calm : k.Lets false f.stopped) (hdry : o.dryRun = false) (hfound : f.found = .ok (some m))
      (first : ∀ s, p.before.head? = some s → k.Lets f.stopped s.stopped)
      (crosses : p.Crosses o (.step f.step) status) (calls : call.isSome = p.proceeds)
      (own : ∀ c ∈ call, c.found = m ∧ c.step = f.step) :
      Nested o k (.node (.step f.step)) (.find f :: p.around (call.toList.map .call))
  | node {n : HookScope} {start : EnterCue} {p : Passage} {inside : List Cue} {status : Status}
      (level : start.level = n.level) (calm : n ≠ .suite → k.Lets false start.stopped)
      (first : ∀ s, p.before.head? = some s → k.Lets start.stopped s.stopped)
      (crosses : p.Crosses o n status) (barred : p.proceeds = false → inside = [])
      (hinside : Nested o k (.within n) inside) :
      Nested o k (.node n) (.enter start :: p.around inside)
  | nil (n : HookScope) : Nested o k (.within n) []
  | cons {n m : HookScope} {cues rest : List Cue} (hholds : n.holds m = true)
      (hfirst : Nested o k (.node m) cues) (hrest : Nested o k (.within n) rest) :
      Nested o k (.within n) (cues ++ rest)

namespace Nested

variable {o : RunOptions} {k : Company} {n m : HookScope} {cues : List Cue}

theorem within_append {xs ys : List Cue} (hxs : Nested o k (.within n) xs)
    (hys : Nested o k (.within n) ys) : Nested o k (.within n) (xs ++ ys) := by
  generalize hstretch : Stretch.within n = q at hxs
  induction hxs with
  | bare | step | node => cases hstretch
  | nil =>
    cases hstretch
    exact hys
  | cons hholds hfirst hrest ihfirst ihrest =>
    cases hstretch
    rw [List.append_assoc]
    exact .cons hholds hfirst (ihrest rfl)

theorem single (hholds : n.holds m = true) (h : Nested o k (.node m) cues) :
    Nested o k (.within n) cues := by
  have hcons := cons hholds h (.nil n)
  rwa [List.append_nil] at hcons

theorem within_flatMap {as : List α} {cuesOf : α → List Cue}
    (h : ∀ a ∈ as, Nested o k (.within n) (cuesOf a)) :
    Nested o k (.within n) (as.flatMap cuesOf) := by
  induction as with
  | nil => exact .nil n
  | cons a rest ih =>
    obtain ⟨ha, hrest⟩ := List.forall_mem_cons.1 h
    exact (ha.within_append (ih hrest))

end Nested

/-! ### Accounts are nested -/

variable {t : Terms} {e : Bool}

theorem Visited.nested {b : Bool} {n : HookScope} {values : List (String × Datum)}
    {status : Status} {start : EnterCue} {p : Passage} {inside : List Cue}
    (h : Visited t b n values status start p) (hcalm : n ≠ .suite → b = false)
    (hbarred : p.proceeds = false → inside = [])
    (hinside : Nested t.options t.company (.within n) inside) :
    Nested t.options t.company (.node n) (.enter start :: p.around inside) := by
  refine .node h.level ?_ h.first h.crosses hbarred hinside
  intro hn
  rw [← hcalm hn]
  exact h.calm

namespace StepAccount

theorem Started.nested {a : StepAccount} (h : a.Started t) :
    Nested t.options t.company (.node (.step a.step)) a.cues := by
  cases h with
  | @faulty step background stopped err calm =>
    exact .bare (f := ⟨step, .error err, stopped⟩) calm (.inr fun m hm => by cases hm)
  | @unknown step background stopped calm =>
    exact .bare (f := ⟨step, .ok none, stopped⟩) calm (.inr fun m hm => by cases hm)
  | @dry step background stopped m hdry calm =>
    exact .bare (f := ⟨step, .ok (some m), stopped⟩) calm (.inl hdry)
  | @matched step background stopped m before after call hdry calm first opens calls own closes =>
    exact .step (f := ⟨step, .ok (some m), stopped⟩) calm hdry rfl (by simpa using first)
      (Passage.crosses_step hdry opens closes) (by simpa [Passage.proceeds] using calls) own

theorem Sequel.nested {c : Bool} {s : Scenario} {as : List StepAccount} (h : Sequel t c as) :
    Nested t.options t.company (.within (.scenario s)) (as.flatMap (·.cues)) := by
  induction h with
  | nil => exact .nil _
  | stopped rest hstop =>
    rw [Work.cues_idle_steps]
    exact .nil _
  | halted rest hstart hhalt =>
    rw [List.flatMap_cons, Work.cues_idle_steps, List.append_nil]
    exact hstart.nested.single rfl
  | further hstart hhalt hrest ih =>
    rw [List.flatMap_cons]
    exact .cons rfl hstart.nested ih

end StepAccount

theorem AttemptAccount.Sound.nested {backgrounds : List Background} {p : PlannedScenario}
    {a : AttemptAccount} (h : a.Sound t backgrounds p) :
    Nested t.options t.company (.node (.scenario p.scenario)) a.cues := by
  refine h.visited.nested (fun _ => rfl) (fun hfail => ?_) ?_
  · rw [h.barred (.inl hfail), Work.cues_idle_steps]
  · rcases h.steps_cases with ⟨-, -, hsequel⟩ | ⟨-, hidle⟩
    · exact hsequel.nested
    · rw [hidle, Work.cues_idle_steps]
      exact .nil _

/-- The attempts at a scenario are nodes of their own. -/
theorem ScenarioAccount.Sound.nested {backgrounds : List Background} {a : ScenarioAccount}
    (h : a.Sound t e backgrounds) :
    ∀ x ∈ a.attempts, Nested t.options t.company (.node (.scenario a.planned.scenario)) x.cues :=
  fun _ hx => (h.attempt hx).nested

/-- Nothing is called for a scenario if the node around it was not entered. -/
theorem ScenarioAccount.Sound.cues_barred {backgrounds : List Background} {a : ScenarioAccount}
    (h : a.Sound t false backgrounds) : a.cues = [] := by
  cases h with
  | idle p hidle => rfl
  | tried he => cases he

theorem ScenarioAccount.Sound.nested_within {backgrounds : List Background} {a : ScenarioAccount}
    (h : a.Sound t e backgrounds) {n : HookScope}
    (hholds : n.holds (.scenario a.planned.scenario)) :
    Nested t.options t.company (.within n) a.cues :=
  Nested.within_flatMap fun x hx => (h.nested x hx).single hholds

theorem RuleAccount.Sound.nested_within {around : List Background} {a : RuleAccount}
    (h : a.Sound t e around) {n : HookScope} (hholds : n.holds (.rule a.planned.rule) = true) :
    Nested t.options t.company (.within n) a.cues := by
  cases h with
  | idle p hidle =>
    rw [(Work.idle_rule _ p).2.2]
    exact .nil n
  | @visited p start passage scenarios he hselected hvisited hplanned hinside =>
    refine .single hholds (hvisited.nested (fun _ => rfl) ?_ ?_)
    · intro hfail
      rw [hfail] at hinside
      exact List.flatMap_eq_nil_iff.2 fun s hs => (hinside s hs).cues_barred
    · exact Nested.within_flatMap fun s hs => (hinside s hs).nested_within rfl

theorem RuleAccount.Sound.cues_barred {around : List Background} {a : RuleAccount}
    (h : a.Sound t false around) : a.cues = [] := by
  cases h with
  | idle p hidle => exact (Work.idle_rule _ p).2.2
  | visited he => cases he

namespace ChildAccount

theorem cues_barred {around : List Background} {a : ChildAccount} (h : a.Sound t false around) :
    a.cues = [] := by
  cases a with
  | scenario s => exact ScenarioAccount.Sound.cues_barred h
  | rule r => exact RuleAccount.Sound.cues_barred h

theorem nested_within {around : List Background} {a : ChildAccount} (h : a.Sound t e around)
    (f : Feature) : Nested t.options t.company (.within (.feature f)) a.cues := by
  cases a with
  | scenario s => exact ScenarioAccount.Sound.nested_within h rfl
  | rule r => exact RuleAccount.Sound.nested_within h rfl

end ChildAccount

/-- A feature that is started is nested; for others nothing is called. -/
theorem FeatureAccount.Sound.nested {a : FeatureAccount} (h : a.Sound t e) :
    a.cues = [] ∨
      e = true ∧ Nested t.options t.company (.node (.feature a.planned.feature)) a.cues := by
  cases h with
  | idle p hidle => exact .inl (Work.idle_feature p).2.2
  | @visited p start passage children he hselected hvisited hplanned hinside =>
    refine .inr ⟨he, hvisited.nested (fun _ => rfl) ?_ ?_⟩
    · intro hfail
      rw [hfail] at hinside
      exact List.flatMap_eq_nil_iff.2 fun c hc => ChildAccount.cues_barred (hinside c hc)
    · exact Nested.within_flatMap fun c hc => ChildAccount.nested_within (hinside c hc) p.feature

theorem RunAccount.Sound.nested {b : Bool} {p : Plan} {a : RunAccount} (h : a.Sound t b p) :
    Nested t.options t.company (.node .suite) a.cues := by
  refine h.visited.nested (fun hn => absurd rfl hn) ?_ ?_
  · intro hfail
    refine List.flatMap_eq_nil_iff.2 fun f hf => ?_
    rcases (h.inside f hf).nested with hnil | ⟨he, -⟩
    · exact hnil
    · rw [hfail] at he
      cases he
  · refine Nested.within_flatMap fun f hf => ?_
    rcases (h.inside f hf).nested with hnil | ⟨-, hnested⟩
    · rw [hnil]
      exact .nil _
    · exact hnested.single rfl

end Rehearsal
