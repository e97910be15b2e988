import Rehearsal.Proofs.Account.Scenario
import Rehearsal.Proofs.Account.Tree

/-!
# Accounts of runs exist

Every course of the work on a rule, a feature or a whole plan is told by a sound account
with the same cues and the same result, so every run has one (`Runner.exists_account`).
Later modules read what a run may do from the accounts only.
-/

namespace Rehearsal

namespace Work

variable {t : Terms} {b c : Bool} {cues : List Cue}

/-- Work on the members of a list, one after the other. -/
def each (f : α → Work β) : List α → Work (List β)
  | [] => return []
  | a :: rest => do
    let b ← f a
    let bs ← each f rest
    return b :: bs

section Each

variable {A : Type} {f : α → Work β} {g : α → β} {planned : A → α} {result : A → β}
  {cuesOf : A → List Cue} {idle : α → A} {Q : Bool → A → Prop}

/-- If every course of the work on one member has an account, so has every course of the work
on all of them. -/
theorem course_each
    (hmember : ∀ {a b cues r c}, (c = true → t.stopped = true) →
      (f a).Course t.company b cues r c →
      ∃ x : A, Q true x ∧ planned x = a ∧ result x = r ∧ cuesOf x = cues)
    {as : List α} {rs : List β} (hstop : c = true → t.stopped = true)
    (h : (each f as).Course t.company b cues rs c) :
    ∃ xs : List A, (∀ x ∈ xs, Q true x) ∧ xs.map planned = as ∧ xs.map result = rs ∧
      xs.flatMap cuesOf = cues := by
  induction as generalizing b cues rs with
  | nil =>
    obtain ⟨rfl, rfl, rfl⟩ := course_pure h
    exact ⟨[], by simp, rfl, rfl, rfl⟩
  | cons a rest ih =>
    obtain ⟨first, r, b₁, second, rfl, h₁, h₂⟩ := course_seq h
    obtain ⟨third, rs', b₂, fourth, rfl, h₃, h₄⟩ := course_seq h₂
    obtain ⟨rfl, rfl, rfl⟩ := course_pure h₄
    obtain ⟨x, hx, rfl, rfl, rfl⟩ := hmember (fun hb₁ => hstop (h₂.pairwise_rises.1 hb₁)) h₁
    obtain ⟨xs, hxs, rfl, rfl, rfl⟩ := ih h₃
    exact ⟨x :: xs, List.forall_mem_cons.2 ⟨hx, hxs⟩, rfl, rfl, by simp⟩

/-- Members that are not started have accounts without cues. -/
theorem each_idle
    (hidle : ∀ a, planned (idle a) = a ∧ result (idle a) = g a ∧ cuesOf (idle a) = [])
    (as : List α) :
    (as.map idle).map planned = as ∧ (as.map idle).map result = as.map g ∧
      (as.map idle).flatMap cuesOf = [] := by
  induction as with
  | nil => simp
  | cons a rest ih =>
    obtain ⟨hplanned, hresult, hcues⟩ := hidle a
    obtain ⟨ihplanned, ihresult, ihcues⟩ := ih
    refine ⟨?_, ?_, ?_⟩
    · rw [List.map_cons, List.map_cons, hplanned, ihplanned]
    · rw [List.map_cons, List.map_cons, hresult, ihresult, List.map_cons]
    · rw [List.map_cons, List.flatMap_cons, hcues, ihcues]
      rfl

/-- The work inside a node: its members are gone through if the entry into the node has
succeeded, and not started otherwise. -/
theorem course_inside
    (hmember : ∀ {a b cues r c}, (c = true → t.stopped = true) →
      (f a).Course t.company b cues r c →
      ∃ x : A, Q true x ∧ planned x = a ∧ result x = r ∧ cuesOf x = cues)
    (hbarred : ∀ a, Q false (idle a))
    (hidle : ∀ a, planned (idle a) = a ∧ result (idle a) = g a ∧ cuesOf (idle a) = [])
    {e : Bool} {as : List α} {rs : List β} (hstop : c = true → t.stopped = true)
    (h : (if e then each f as else pure (as.map g) : Work (List β)).Course t.company b cues rs c) :
    ∃ xs : List A, (∀ x ∈ xs, Q e x) ∧ xs.map planned = as ∧ xs.map result = rs ∧
      xs.flatMap cuesOf = cues := by
  cases e with
  | true => exact course_each hmember hstop h
  | false =>
    obtain ⟨rfl, rfl, rfl⟩ := course_pure h
    exact ⟨as.map idle, List.forall_mem_map.2 fun a _ => hbarred a, each_idle hidle as⟩

end Each

theorem runScenarios_eq_each (o : RunOptions) (backgrounds : List Background)
    (ps : List PlannedScenario) :
    o.runScenarios backgrounds ps = each (o.runScenario backgrounds) ps := by
  induction ps with
  | nil => rfl
  | cons p rest ih =>
    unfold RunOptions.runScenarios each
    rw [ih]

theorem runChildren_eq_each (o : RunOptions) (around : List Background)
    (ps : List PlannedChild) : o.runChildren around ps = each (o.runChild around) ps := by
  induction ps with
  | nil => rfl
  | cons p rest ih =>
    unfold RunOptions.runChildren each
    rw [ih]

theorem runFeatures_eq_each (o : RunOptions) (ps : List PlannedFeature) :
    o.runFeatures ps = each o.runFeature ps := by
  induction ps with
  | nil => rfl
  | cons p rest ih =>
    unfold RunOptions.runFeatures each
    rw [ih]

/-- A node is started, entered, gone through and left. The work inside it may depend on how
the entry went, and the status on leaving on both. -/
theorem course_visit (n : HookScope) {values : List (String × Datum)} {tags : TagSet}
    (htags : tags.tags = n.tags) {body : NodeEntry → Work α} {status : NodeEntry → α → Status}
    {result : α → HookReport → β} {r : β}
    (h : (do
      enter n.level values
      let entry ← t.options.enterNode tags n.before n
      let inside ← body entry
      let report ← t.options.exitNode entry n.before.closing n (status entry inside)
      leave
      return result inside report : Work β).Course t.company b cues r c) :
    ∃ (start : EnterCue) (p : Passage) (entry : NodeEntry) (inside : α) (within : List Cue)
        (b₁ b₂ : Bool),
      Visited t b n values (status entry inside) start p ∧ entry.report = .ofSlots p.before ∧
      entry.proceeds = p.proceeds ∧ (body entry).Course t.company b₁ within inside b₂ ∧
      (b₂ = true → c = true) ∧ r = result inside (.ofSlots p.slots) ∧
      cues = .enter start :: p.around within := by
  obtain ⟨c₁, _, d₁, e₁, rfl, h₁, g₁⟩ := course_seq h
  obtain ⟨hcalm, rfl⟩ := course_enter h₁
  obtain ⟨c₂, entry, d₂, e₂, rfl, h₂, g₂⟩ := course_seq g₁
  obtain ⟨before, rfl, henters, hreport, hproceeds, hexits⟩ := course_enterNode n htags h₂
  obtain ⟨within, inside, d₃, e₃, rfl, h₃, g₃⟩ := course_seq g₂
  obtain ⟨c₄, report, d₄, e₄, rfl, h₄, g₄⟩ := course_seq g₃
  obtain ⟨c₅, _, d₅, e₅, rfl, h₅, g₅⟩ := course_seq g₄
  obtain ⟨-, rfl⟩ := course_leave h₅
  obtain ⟨rfl, hresult, rfl⟩ := course_pure g₅
  obtain ⟨after, rfl, hevents, rfl⟩ := course_exitNode n h₄
  rw [hexits] at hevents
  rw [hreport, HookReport.addAll_ofSlots] at hresult
  refine ⟨⟨n.level, values, d₁⟩, ⟨before, after⟩, entry, inside, within, d₂, d₃,
    ⟨rfl, rfl, hcalm, henters.first, henters.crosses hevents⟩, hreport, hproceeds, h₃,
    g₃.pairwise_rises.1, hresult, ?_⟩
  simp [Passage.around]

theorem idle_scenario (backgrounds : List Background) (p : PlannedScenario) :
    (ScenarioAccount.idle backgrounds p).planned = p ∧
      (ScenarioAccount.idle backgrounds p).result = p.skipped backgrounds ∧
      (ScenarioAccount.idle backgrounds p).cues = [] :=
  ⟨rfl, rfl, rfl⟩

theorem idle_rule (backgrounds : List Background) (p : PlannedRule) :
    (RuleAccount.idle backgrounds p).planned = p ∧
      (RuleAccount.idle backgrounds p).result = p.skipped backgrounds ∧
      (RuleAccount.idle backgrounds p).cues = [] := by
  obtain ⟨-, -, hcues⟩ := each_idle (idle_scenario backgrounds) p.scenarios
  refine ⟨rfl, rfl, ?_⟩
  simpa [RuleAccount.cues, RuleAccount.idle, Passage.around, Passage.none] using hcues

theorem course_runRule {around : List Background} {p : PlannedRule} {r : RuleResult}
    (hstop : c = true → t.stopped = true)
    (h : (t.options.runRule around p).Course t.company b cues r c) :
    ∃ a : RuleAccount, a.Sound t true around ∧ a.planned = p ∧ a.result = r ∧ a.cues = cues := by
  obtain ⟨rfl, rfl, -, hidle⟩ | ⟨hselected, -, hvisit⟩ := course_selected h
  · exact ⟨_, .idle p (hidle.imp_right fun hc => .inl (hstop hc)), rfl, rfl, (idle_rule _ p).2.2⟩
  · obtain ⟨start, passage, entry, results, within, b₁, b₂, hvisited, hreport, hproceeds, hbody,
      hend, rfl, rfl⟩ := course_visit (.rule p.rule) rfl hvisit
    rw [runScenarios_eq_each, hproceeds] at hbody
    obtain ⟨as, hinside, hplanned, rfl, rfl⟩ :=
      course_inside (Q := fun e a => a.Sound t e (p.backgrounds around)) course_runScenario
        (fun q => .idle q (.inr (.inr rfl))) (idle_scenario _) (fun hb₂ => hstop (hend hb₂)) hbody
    rw [hreport, List.map_map] at hvisited
    refine ⟨⟨p, some start, passage, as, _⟩, .visited rfl hselected hvisited hplanned hinside,
      rfl, ?_, by simp [RuleAccount.cues]⟩
    rw [List.map_map]
    rfl

theorem course_runChild {around : List Background} {p : PlannedChild} {r : ChildResult}
    (hstop : c = true → t.stopped = true)
    (h : (t.options.runChild around p).Course t.company b cues r c) :
    ∃ a : ChildAccount, a.Sound t true around ∧ a.planned = p ∧ a.result = r ∧ a.cues = cues := by
  cases p with
  | scenario p =>
    obtain ⟨first, result, b₁, second, rfl, h₁, h₂⟩ := course_seq h
    obtain ⟨rfl, rfl, rfl⟩ := course_pure h₂
    obtain ⟨a, ha, rfl, rfl, rfl⟩ := course_runScenario hstop h₁
    exact ⟨.scenario a, ha, rfl, rfl, by simp [ChildAccount.cues]⟩
  | rule p =>
    obtain ⟨first, result, b₁, second, rfl, h₁, h₂⟩ := course_seq h
    obtain ⟨rfl, rfl, rfl⟩ := course_pure h₂
    obtain ⟨a, ha, rfl, rfl, rfl⟩ := course_runRule hstop h₁
    exact ⟨.rule a, ha, rfl, rfl, by simp [ChildAccount.cues]⟩

theorem idle_child (around : List Background) (p : PlannedChild) :
    (ChildAccount.idle around p).planned = p ∧
      (ChildAccount.idle around p).result = p.skipped around ∧
      (ChildAccount.idle around p).cues = [] := by
  cases p with
  | scenario p => exact ⟨rfl, rfl, rfl⟩
  | rule p => exact ⟨rfl, rfl, (idle_rule _ p).2.2⟩

theorem barred_child (around : List Background) (p : PlannedChild) :
    (ChildAccount.barred around p).planned = p ∧
      (ChildAccount.barred around p).result = p.barred around ∧
      (ChildAccount.barred around p).cues = [] := by
  cases p with
  | scenario p => exact ⟨rfl, rfl, rfl⟩
  | rule p => exact ⟨rfl, rfl, (idle_rule _ p).2.2⟩

theorem sound_barred (around : List Background) (p : PlannedChild) :
    (ChildAccount.barred around p).Sound t false around := by
  cases p with
  | scenario p => exact .idle p (.inr (.inr rfl))
  | rule p => exact .idle p (.inr (.inr rfl))

theorem idle_feature (p : PlannedFeature) :
    (FeatureAccount.idle p).planned = p ∧ (FeatureAccount.idle p).result = p.skipped ∧
      (FeatureAccount.idle p).cues = [] := by
  obtain ⟨-, -, hcues⟩ := each_idle (idle_child p.feature.backgrounds) p.children
  refine ⟨rfl, rfl, ?_⟩
  simpa [FeatureAccount.cues, FeatureAccount.idle, Passage.around, Passage.none] using hcues

theorem course_runFeature {p : PlannedFeature} {r : FeatureResult}
    (hstop : c = true → t.stopped = true)
    (h : (t.options.runFeature p).Course t.company b cues r c) :
    ∃ a : FeatureAccount, a.Sound t true ∧ a.planned = p ∧ a.result = r ∧ a.cues = cues := by
  obtain ⟨rfl, rfl, -, hidle⟩ | ⟨hselected, -, hvisit⟩ := course_selected h
  · exact ⟨_, .idle p (hidle.imp_right fun hc => .inl (hstop hc)), rfl, rfl, (idle_feature p).2.2⟩
  · obtain ⟨start, passage, entry, results, within, b₁, b₂, hvisited, hreport, hproceeds, hbody,
      hend, rfl, rfl⟩ := course_visit (.feature p.feature) rfl hvisit
    rw [runChildren_eq_each, hproceeds] at hbody
    obtain ⟨as, hinside, hplanned, rfl, rfl⟩ :=
      course_inside (Q := fun e a => a.Sound t e p.feature.backgrounds) course_runChild
        (sound_barred _) (barred_child _) (fun hb₂ => hstop (hend hb₂)) hbody
    rw [hreport, List.map_map] at hvisited
    refine ⟨⟨p, some start, passage, as, _⟩, .visited rfl hselected hvisited hplanned hinside,
      rfl, ?_, by simp [FeatureAccount.cues]⟩
    rw [List.map_map]
    rfl

/-- A feature is not started once the run is to stop. -/
theorem course_runFeature_stopped {p : PlannedFeature} {r : FeatureResult}
    (h : (t.options.runFeature p).Course t.company true cues r c) :
    cues = [] ∧ r = p.skipped ∧ c = true := by
  obtain ⟨rfl, rfl, hlet, -⟩ | ⟨-, hlet, -⟩ := course_selected h
  · exact ⟨rfl, rfl, hlet.rises rfl⟩
  · exact absurd (hlet.rises rfl) Bool.false_ne_true

/-- Features are not started once the run is to stop. -/
theorem course_runFeatures_stopped {ps : List PlannedFeature} {rs : List FeatureResult}
    (h : (t.options.runFeatures ps).Course t.company true cues rs c) :
    cues = [] ∧ rs = ps.map (·.skipped) ∧ c = true := by
  induction ps generalizing cues rs with
  | nil =>
    obtain ⟨rfl, rfl, rfl⟩ := course_pure h
    exact ⟨rfl, rfl, rfl⟩
  | cons p rest ih =>
    obtain ⟨first, r, b₁, second, rfl, h₁, h₂⟩ := course_seq h
    obtain ⟨third, rs', b₂, fourth, rfl, h₃, h₄⟩ := course_seq h₂
    obtain ⟨rfl, rfl, rfl⟩ := course_pure h₄
    obtain ⟨rfl, rfl, rfl⟩ := course_runFeature_stopped h₁
    obtain ⟨rfl, rfl, rfl⟩ := ih h₃
    exact ⟨rfl, rfl, rfl⟩

/-- Of slots that have failed, but not fatally, one has asked for a stop. -/
theorem exists_asksStop {ss : List SlotCue} (hok : ss.all (·.isOk) = false)
    (hfatal : ss.findSome? (fun s => s.call.fatal?) = none) : ∃ s ∈ ss, s.asksStop = true := by
  obtain ⟨s, hs, hfail⟩ := List.all_eq_false.1 hok
  rw [Bool.not_eq_true] at hfail
  rcases s.isOk_eq_false_iff.1 hfail with hfails | hask
  · rw [List.findSome?_eq_none_iff] at hfatal
    rw [← s.isSome_fatal?, hfatal s hs] at hfails
    cases hfails
  · exact ⟨s, hs, hask⟩

theorem findSome?_fatal?_eq_none {ss : List SlotCue} (hok : ss.all (·.isOk) = true) :
    ss.findSome? (fun s => s.call.fatal?) = none := by
  rw [List.findSome?_eq_none_iff]
  intro s hs
  exact s.fatal?_eq_none (List.all_eq_true.1 hok s hs)

/-- The work on a single feature, after the slots of the opening of the run. -/
theorem course_feature {ss : List SlotCue} {p : PlannedFeature} {r : FeatureResult}
    (hfatal : ss.findSome? (fun s => s.call.fatal?) = none)
    (hasks : ∀ s ∈ ss, s.asksStop = true → b = true) (hstop : c = true → t.stopped = true)
    (h : (t.options.runFeature p).Course t.company b cues r c) :
    ∃ a : FeatureAccount, a.Sound t (ss.all (·.isOk)) ∧ a.planned = p ∧ a.result = r ∧
      a.cues = cues := by
  cases hok : ss.all (·.isOk) with
  | true => exact course_runFeature hstop h
  | false =>
    obtain ⟨s, hs, hask⟩ := exists_asksStop hok hfatal
    rw [hasks s hs hask] at h
    obtain ⟨rfl, rfl, rfl⟩ := course_runFeature_stopped h
    exact ⟨.idle p, .idle p (.inr (.inr rfl)), idle_feature p⟩

/-- The features of a run, after the slots of its opening. -/
theorem course_features {ss : List SlotCue} {fatal : Option HookError} {ps : List PlannedFeature}
    {fs : List FeatureResult} (hfatal : fatal = ss.findSome? fun s => s.call.fatal?)
    (hasks : ∀ s ∈ ss, s.asksStop = true → b = true) (hstop : c = true → t.stopped = true)
    (h : (if fatal.isSome then pure (ps.map (·.skipped)) else t.options.runFeatures ps :
      Work (List FeatureResult)).Course t.company b cues fs c) :
    ∃ as : List FeatureAccount, (∀ a ∈ as, a.Sound t (ss.all (·.isOk))) ∧
      as.map (·.planned) = ps ∧ as.map (·.result) = fs ∧ as.flatMap (·.cues) = cues := by
  cases hok : ss.all (·.isOk) with
  | true =>
    rw [hfatal, findSome?_fatal?_eq_none hok, runFeatures_eq_each] at h
    exact course_each (Q := fun e (a : FeatureAccount) => a.Sound t e) course_runFeature hstop h
  | false =>
    -- a slot that fails makes the run worthless or stops it
    suffices hskipped : cues = [] ∧ fs = ps.map (·.skipped) by
      obtain ⟨rfl, rfl⟩ := hskipped
      refine ⟨ps.map .idle, ?_, each_idle idle_feature ps⟩
      exact List.forall_mem_map.2 fun p _ => .idle p (.inr (.inr rfl))
    split at h
    · obtain ⟨rfl, rfl, -⟩ := course_pure h
      exact ⟨rfl, rfl⟩
    · rename_i hnone
      rw [Bool.not_eq_true, Option.isSome_eq_false_iff, Option.isNone_iff_eq_none, hfatal] at hnone
      obtain ⟨s, hs, hask⟩ := exists_asksStop hok hnone
      rw [hasks s hs hask] at h
      obtain ⟨rfl, rfl, -⟩ := course_runFeatures_stopped h
      exact ⟨rfl, rfl⟩

/-- A slot for the run as a whole, and what is made of it. -/
theorem course_slot_suite {point : HookPoint} {status : Option Status} {call : SlotCall}
    (h : (t.options.slot point .suite status).Course t.company b cues call c) :
    ∃ ss : List SlotCue, cues = ss.map .slot ∧
      Enters t.options t.company b [⟨point, .suite, status⟩] ss c ∧
      ss.map (·.event) = t.options.called [⟨point, .suite, status⟩] ∧
      call.captured = (HookReport.ofSlots ss).captured ∧
      call.message? = (HookReport.ofSlots ss).message? ∧
      call.fatal? = ss.findSome? fun s => s.call.fatal? := by
  obtain ⟨ss, rfl, henters, hevents, hadd, -, hfatal⟩ := course_slot_enters h
  have hreport : HookReport.ofSlots ss = HookReport.empty.add call := (hadd .empty).symm
  refine ⟨ss, rfl, henters, hevents, ?_, ?_, hfatal⟩
  · rw [hreport, HookReport.captured_add]
    simp [HookReport.empty]
  · rw [hreport]
    unfold SlotCall.message? HookReport.add
    cases call.error? with
    | none => rfl
    | some e => simp [HookReport.message?, HookReport.empty]

/-- What the opening of a run has called, and what it has come to. -/
structure Opens (t : Terms) (b start : Bool) (before : List SlotCue) (opening : Opening)
    (c : Bool) : Prop where
  calm : t.company.Lets b start
  enters : Enters t.options t.company start [⟨.beforeAll, .suite, none⟩] before c
  events : before.map (·.event) = t.options.called [⟨.beforeAll, .suite, none⟩]
  captured : opening.captured = (HookReport.ofSlots before).captured
  message : opening.message = (HookReport.ofSlots before).message?
  fatal : opening.fatal = before.findSome? fun s => s.call.fatal?

/-- After an opening that was fatal, features are skipped. -/
theorem Opens.skipped {start : Bool} {before : List SlotCue} {opening : Opening}
    (h : Opens t b start before opening c) (hfatal : opening.fatal.isSome = true)
    (ps : List PlannedFeature) :
    ∃ as : List FeatureAccount, (∀ a ∈ as, a.Sound t (before.all (·.isOk))) ∧
      as.map (·.planned) = ps ∧ as.map (·.result) = ps.map (·.skipped) ∧
      as.flatMap (·.cues) = [] := by
  have hok : before.all (·.isOk) = false := by
    rw [← Bool.not_eq_true]
    intro hall
    rw [h.fatal, findSome?_fatal?_eq_none hall] at hfatal
    cases hfatal
  refine ⟨ps.map .idle, ?_, each_idle idle_feature ps⟩
  rw [hok]
  exact List.forall_mem_map.2 fun p _ => .idle p (.inr (.inr rfl))

theorem course_openRun {opening : Opening}
    (h : t.options.openRun.Course t.company b cues opening c) :
    ∃ (start : Bool) (before : List SlotCue),
      cues = .enter ⟨.suite, [], start⟩ :: before.map .slot ∧ Opens t b start before opening c := by
  obtain ⟨c₁, _, d₁, e₁, rfl, h₁, g₁⟩ := course_seq h
  obtain ⟨hcalm, rfl⟩ := course_enter h₁
  obtain ⟨c₂, call, d₂, e₂, rfl, h₂, g₂⟩ := course_seq g₁
  obtain ⟨before, rfl, henters, hopens, hcaptured, hmessage, hfatal⟩ := course_slot_suite h₂
  obtain ⟨rfl, rfl, rfl⟩ := course_pure g₂
  exact ⟨d₁, before, by simp, hcalm, henters, hopens, hcaptured, hmessage, hfatal⟩

/-- An opening, the accounts of the features and a closing make up the account of a run. -/
theorem course_closeRun {p : Plan} {start b₁ b₂ : Bool} {before : List SlotCue} {opening : Opening}
    {as : List FeatureAccount} {ending : Except FatalError RunResult}
    (hopening : Opens t b start before opening b₁) (hplanned : as.map (·.planned) = p.features)
    (hinside : ∀ a ∈ as, a.Sound t (before.all (·.isOk))) (hstop : t.stopped = c)
    (h : (t.options.closeRun opening (as.map (·.result))).Course t.company b₂ cues ending c) :
    ∃ a : RunAccount, a.Sound t b p ∧ a.ending = ending ∧ a.features = as ∧
      a.start = ⟨.suite, [], start⟩ ∧ a.passage.before = before ∧
      a.passage.after.map .slot = cues := by
  obtain ⟨c₁, call, d₁, e₁, rfl, h₁, g₁⟩ := course_seq h
  obtain ⟨after, rfl, -, hcloses, hcaptured, hmessage, hfatal⟩ := course_slot_suite h₁
  obtain ⟨c₂, _, d₂, e₂, rfl, h₂, g₂⟩ := course_seq g₁
  obtain ⟨-, rfl⟩ := course_leave h₂
  obtain ⟨c₃, cancelled, d₃, e₃, rfl, h₃, g₃⟩ := course_seq g₂
  obtain ⟨-, rfl, rfl⟩ := course_isStopped h₃
  have hexit : after.map (·.event) =
      (before.map (·.event.closing (.rollup (as.map fun f => f.result.status)))).reverse := by
    rw [reverse_map_closing hopening.events, hcloses, List.map_map]
    rfl
  -- what the slots have come to together
  have hsame : opening.fatal.or call.fatal? =
      (before ++ after).findSome? fun s => s.call.fatal? := by
    rw [List.findSome?_append, hopening.fatal, hfatal]
  dsimp only at g₃
  rw [hsame, hopening.message, hmessage, ← HookReport.message?_ofSlots_append, hopening.captured,
    hcaptured, ← HookReport.captured_ofSlots_append] at g₃
  have hend : e₃ = [] ∧ c = d₃ := by
    split at g₃
    · obtain ⟨rfl, -, rfl⟩ := course_pure g₃
      exact ⟨rfl, rfl⟩
    · obtain ⟨rfl, -, rfl⟩ := course_pure g₃
      exact ⟨rfl, rfl⟩
  obtain ⟨rfl, rfl⟩ := hend
  let passage : Passage := ⟨before, after⟩
  let fatal := passage.slots.findSome? fun s => s.call.fatal?
  refine ⟨⟨⟨.suite, [], start⟩, passage, as, fatal, .ofFeatures (as.map (·.result)) fatal.isSome
      (HookReport.ofSlots passage.slots).message? (HookReport.ofSlots passage.slots).captured
      t.stopped⟩,
    ⟨⟨rfl, rfl, hopening.calm, hopening.enters.first, hopening.enters.crosses hexit⟩, hplanned,
      hinside, rfl, rfl⟩, ?_, rfl, rfl, rfl, by simp [passage]⟩
  · rw [hstop]
    unfold RunAccount.ending
    dsimp only [fatal, passage, Passage.slots]
    split at g₃
    · rename_i e hsome
      obtain ⟨-, rfl, -⟩ := course_pure g₃
      rw [hsome]
    · rename_i hnone
      obtain ⟨-, rfl, -⟩ := course_pure g₃
      rw [hnone]

theorem course_runPlan {p : Plan} {ending : Except FatalError RunResult} (hstop : t.stopped = c)
    (h : (t.options.runPlan p).Course t.company b cues ending c) :
    ∃ a : RunAccount, a.Sound t b p ∧ a.ending = ending ∧ a.cues = cues := by
  obtain ⟨c₁, opening, d₁, e₁, rfl, h₁, g₁⟩ := course_seq h
  obtain ⟨c₂, fs, d₂, e₂, rfl, h₂, g₂⟩ := course_seq g₁
  obtain ⟨start, before, rfl, hopening⟩ := course_openRun h₁
  obtain ⟨as, hinside, hplanned, rfl, rfl⟩ := course_features hopening.fatal hopening.enters.stops
    (fun hd₂ => hstop.trans (g₂.pairwise_rises.1 hd₂)) h₂
  obtain ⟨a, ha, hending, rfl, hstart, rfl, rfl⟩ :=
    course_closeRun hopening hplanned hinside hstop g₂
  exact ⟨a, ha, hending, by simp [RunAccount.cues, Passage.around, hstart]⟩

end Work

/-- The result of a run, also of one that a hook around it has made worthless. -/
def Ended.report? (e : Ended W) : Option RunResult :=
  match e.result with
  | .ok result => some result
  | .error err => err.result?

theorem Ended.report?_eq {e : Ended W} {a : RunAccount}
    (hresult : e.result = a.ending.mapError .fatal) : e.report? = some a.result := by
  rw [report?, hresult, RunAccount.ending]
  cases a.fatal <;> rfl

namespace Runner

variable (r : Runner W) (suite : Suite) (world : W) (cancelled : Bool)

/-- The terms of a run: it is done alone. -/
def terms : Terms := ⟨r.options, .alone, (r.run suite world cancelled).stage.isStopped⟩

/-- A run over a well-formed suite is a course of the work on its plan. -/
theorem course_run (hvalid : suite.violation? = none) :
    ∃ ending : Except FatalError RunResult,
      (r.options.runPlan (r.options.plan suite)).Course .alone cancelled
        (r.cues suite world cancelled) ending (r.run suite world cancelled).stage.isStopped ∧
      (r.run suite world cancelled).result = ending.mapError .fatal := by
  obtain ⟨deeds, hpast, hcourse⟩ :=
    r.course (r.options.runPlan (r.options.plan suite)) (Stage.start world cancelled)
  have hrun : r.run suite world cancelled =
      ⟨(r.perform (r.options.runPlan (r.options.plan suite)) (Stage.start world cancelled)).1,
        (r.perform (r.options.runPlan (r.options.plan suite))
          (Stage.start world cancelled)).2.mapError .fatal⟩ := by
    rw [run, hvalid]
  have hstart : (Stage.start world cancelled).isStopped = cancelled := Bool.or_false cancelled
  have hdeeds : (r.run suite world cancelled).stage.past.reverse = deeds := by
    rw [hrun, hpast]
    simp [Stage.start]
  rw [hstart] at hcourse
  rw [cues, hdeeds, hrun]
  exact ⟨_, hcourse, rfl⟩

/-- A run over a well-formed suite has an account, with the cues of the run and its result. -/
theorem exists_account (hvalid : suite.violation? = none) :
    ∃ a : RunAccount, a.Sound (r.terms suite world cancelled) cancelled (r.options.plan suite) ∧
      (r.run suite world cancelled).result = a.ending.mapError .fatal ∧
      a.cues = r.cues suite world cancelled := by
  obtain ⟨ending, hcourse, hresult⟩ := r.course_run suite world cancelled hvalid
  obtain ⟨a, ha, rfl, hcues⟩ :=
    Work.course_runPlan (t := r.terms suite world cancelled) rfl hcourse
  exact ⟨a, ha, hresult, hcues⟩

/-- Nothing is done in a run over a malformed suite. -/
theorem run_malformed {m : Malformed} (hinvalid : suite.violation? = some m) :
    r.run suite world cancelled = ⟨.start world cancelled, .error (.malformed m)⟩ := by
  rw [run, hinvalid]

/-- Whenever a run has a result, there is an account with this result. -/
theorem exists_account_of_report {result : RunResult}
    (h : (r.run suite world cancelled).report? = some result) :
    ∃ a : RunAccount, a.Sound (r.terms suite world cancelled) cancelled (r.options.plan suite) ∧
      a.result = result ∧ a.cues = r.cues suite world cancelled ∧
      (a.fatal.isSome = true ↔ ∃ err, (r.run suite world cancelled).result = .error err) := by
  cases hvalid : suite.violation? with
  | some m =>
    rw [r.run_malformed suite world cancelled hvalid] at h
    cases h
  | none =>
    obtain ⟨a, ha, hending, hcues⟩ := r.exists_account suite world cancelled hvalid
    rw [Ended.report?_eq hending, Option.some.injEq] at h
    refine ⟨a, ha, h, hcues, ?_⟩
    rw [hending, RunAccount.ending]
    cases a.fatal with
    | none =>
      constructor
      · intro hsome
        cases hsome
      · rintro ⟨err, herr⟩
        cases herr
    | some e => exact ⟨fun _ => ⟨_, rfl⟩, fun _ => rfl⟩

/-- A runner with some hooks and no step definitions. -/
def ofHooks (hooks : Hooks Unit) : Runner Unit := ⟨.empty, hooks, .default, "rehearsal"⟩

end Runner

/-- A suite that consists of a single scenario. -/
def Suite.single (s : Scenario) : Suite :=
  ⟨[{ Feature.named "feature" with children := [.definition (.scenario s)] }]⟩

end Rehearsal
