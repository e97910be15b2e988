import Rehearsal.Proofs.Account.Run

/-!
# The first failure

With `stopOnFailure`, a scenario that fails raises the wish to stop, and the loops around it heed
that wish: no other scenario, rule or feature is begun.

`Terms.Covers` says that accounts of scenarios tell of some results in their order, and of all cues
but those of the nodes around them. `Terms.Heeds` adds what a piece of work does about the wish to
stop, and `FirstFailure.Divides` where it was raised: the scenarios before it have not failed, those
after it are spared, and nothing is called any more but the slots on the way out of the nodes around
it. `Runner.stops_at_first_failure` is the case of a whole run.
-/

namespace Rehearsal

namespace ScenarioAccount

/-- The scenario is skipped with all its steps, and nothing was called for it. -/
structure Spared (a : ScenarioAccount) : Prop where
  attempts : a.result.attempts = 0
  status : a.result.status = .skipped
  steps : ∀ s ∈ a.result.steps, s.status = .skipped
  calls : a.cues = []

variable {t : Terms} {e : Bool} {backgrounds : List Background} {a : ScenarioAccount}

theorem Sound.spared (h : a.Sound t e backgrounds) (hzero : a.result.attempts = 0) : a.Spared := by
  have hnone : a.attempts = [] := by
    cases h with
    | idle p hidle => rfl
    | tried => cases hzero
  obtain ⟨hattempts, hstatus, hsteps⟩ := h.untouched hnone
  exact ⟨hattempts, hstatus, hsteps, by rw [cues, hnone, List.flatMap_nil]⟩

theorem Spared.isFailure_eq_false (h : a.Spared) : a.result.status.isFailure = false := by
  rw [h.status]
  rfl

end ScenarioAccount

/-- The passage is one through a rule, a feature or the run as a whole. -/
def Passage.Surrounds (o : RunOptions) (p : Passage) : Prop :=
  ∃ n status, p.Crosses o n status ∧ (n.level = .rule ∨ n.level = .feature ∨ n.level = .suite)

/-- The cue is one of a node around scenarios. -/
def Cue.Surrounds (o : RunOptions) : Cue → Prop
  | .enter e => e.level = .rule ∨ e.level = .feature ∨ e.level = .suite
  | .slot s => ∃ p : Passage, p.Surrounds o ∧ s ∈ p.slots
  | .find _ | .call _ => False

/-- The accounts are those of the scenarios, in order, with their results. The cues are those of
the accounts, in the same order, and those of the nodes around the scenarios. -/
structure Terms.Covers (t : Terms) (cues : List Cue) (ps : List PlannedScenario)
    (rs : List ScenarioResult) (ss : List ScenarioAccount) : Prop where
  planned : ss.map (·.planned) = ps
  results : ss.map (·.result) = rs
  sound : ∀ s ∈ ss, ∃ e backgrounds, s.Sound t e backgrounds
  order : (ss.flatMap (·.cues)).Sublist cues
  others : ∃ others, cues.Perm (ss.flatMap (·.cues) ++ others) ∧
    ∀ cue ∈ others, cue.Surrounds t.options

/-- A scenario that has failed, with what lies before it and after it. Of what is called after it,
nothing is left but slots on leaving the nodes `around` it, the inmost first. -/
structure FirstFailure where
  before : List ScenarioAccount
  failed : ScenarioAccount
  after : List ScenarioAccount
  earlier : List Cue
  around : List Passage

namespace FirstFailure

def later (f : FirstFailure) : List Cue := f.around.flatMap fun p => p.after.map .slot

/-- The scenarios and the cues are divided by the one scenario that has failed. -/
structure Divides (o : RunOptions) (cues : List Cue) (ss : List ScenarioAccount)
    (f : FirstFailure) : Prop where
  scenarios : ss = f.before ++ f.failed :: f.after
  cues : cues = f.earlier ++ f.failed.cues ++ f.later
  before : ∀ s ∈ f.before, s.result.status.isFailure = false
  failed : f.failed.result.status.isFailure = true
  after : ∀ s ∈ f.after, s.Spared
  around : ∀ p ∈ f.around, p.Surrounds o

variable {o : RunOptions} {cues : List Cue} {ss : List ScenarioAccount} {f : FirstFailure}

/-- There is only one failure. -/
theorem Divides.filter_eq (h : f.Divides o cues ss) :
    ss.filter (·.result.status.isFailure) = [f.failed] := by
  have hnone : ∀ us : List ScenarioAccount, (∀ s ∈ us, s.result.status.isFailure = false) →
      us.filter (·.result.status.isFailure) = [] := by
    intro us hus
    rw [List.filter_eq_nil_iff]
    intro s hs
    rw [hus s hs]
    exact Bool.false_ne_true
  have hafter : f.after.filter (·.result.status.isFailure) = [] :=
    hnone _ fun s hs => (h.after s hs).isFailure_eq_false
  rw [h.scenarios, List.filter_append, hnone _ h.before, List.nil_append,
    List.filter_cons_of_pos (by exact h.failed), hafter]

end FirstFailure

/-- The work goes through the scenarios while the wish to stop goes from `b` to `c`: it does nothing
once that wish is there, and the first scenario that fails raises it. -/
structure Terms.Heeds (t : Terms) (b : Bool) (cues : List Cue) (ps : List PlannedScenario)
    (rs : List ScenarioResult) (ss : List ScenarioAccount) (c : Bool) : Prop where
  covers : t.Covers cues ps rs ss
  rises : b = true → c = true
  barred : b = true → cues = [] ∧ ∀ s ∈ ss, s.Spared
  first : (∀ s ∈ ss, s.result.status.isFailure = false) ∨
    c = true ∧ ∃ f : FirstFailure, f.Divides t.options cues ss

variable {t : Terms} {b c d : Bool} {cues cues' : List Cue} {ps ps' : List PlannedScenario}
  {rs rs' : List ScenarioResult} {ss ss' : List ScenarioAccount}

namespace Terms

theorem Covers.nil : t.Covers [] [] [] [] :=
  ⟨rfl, rfl, by simp, List.Sublist.refl _, [], by simp, by simp⟩

theorem Covers.append (h : t.Covers cues ps rs ss) (h' : t.Covers cues' ps' rs' ss') :
    t.Covers (cues ++ cues') (ps ++ ps') (rs ++ rs') (ss ++ ss') where
  planned := by rw [List.map_append, h.planned, h'.planned]
  results := by rw [List.map_append, h.results, h'.results]
  sound := List.forall_mem_append.2 ⟨h.sound, h'.sound⟩
  order := by
    rw [List.flatMap_append]
    exact h.order.append h'.order
  others := by
    obtain ⟨others, hperm, hothers⟩ := h.others
    obtain ⟨others', hperm', hothers'⟩ := h'.others
    refine ⟨others ++ others', (hperm.append hperm').trans ?_,
      List.forall_mem_append.2 ⟨hothers, hothers'⟩⟩
    rw [List.flatMap_append, List.append_assoc, List.append_assoc]
    exact (List.perm_append_comm_assoc _ _ _).append_left _

/-- The cues of a node around the scenarios. -/
theorem Covers.around (h : t.Covers cues ps rs ss) {start : EnterCue} {p : Passage}
    (hstart : Cue.Surrounds t.options (.enter start)) (hp : p.Surrounds t.options) :
    t.Covers (.enter start :: p.around cues) ps rs ss where
  planned := h.planned
  results := h.results
  sound := h.sound
  order := .cons _ (h.order.trans (p.sublist_around cues))
  others := by
    obtain ⟨others, hperm, hothers⟩ := h.others
    refine ⟨.enter start :: p.around others, ?_,
      List.forall_mem_cons.2 ⟨hstart, fun cue hcue => ?_⟩⟩
    · have hbefore : (p.before.map Cue.slot ++ cues).Perm
          (ss.flatMap (·.cues) ++ (p.before.map Cue.slot ++ others)) :=
        (hperm.append_left _).trans (List.perm_append_comm_assoc _ _ _)
      have hinside : (p.around cues).Perm (ss.flatMap (·.cues) ++ p.around others) := by
        rw [Passage.around, Passage.around, ← List.append_assoc]
        exact hbefore.append_right _
      exact (hinside.cons _).trans List.perm_middle.symm
    · rcases Passage.mem_around.1 hcue with ⟨s, hs, rfl⟩ | hcue
      · exact ⟨p, hp, hs⟩
      · exact hothers cue hcue

/-- A scenario covers all that is called for it. -/
theorem Covers.single {a : ScenarioAccount} {e : Bool} {backgrounds : List Background}
    (h : a.Sound t e backgrounds) : t.Covers a.cues [a.planned] [a.result] [a] where
  planned := rfl
  results := rfl
  sound := List.forall_mem_singleton.2 ⟨e, backgrounds, h⟩
  order := by simp
  others := ⟨[], by simp, by simp⟩

theorem Covers.idle (t : Terms) (backgrounds : List Background) (ps : List PlannedScenario) :
    t.Covers [] ps (ps.map (·.skipped backgrounds)) (ps.map (.idle backgrounds)) := by
  obtain ⟨hplanned, hresults, hcues⟩ := Work.each_idle (Work.idle_scenario backgrounds) ps
  refine ⟨hplanned, hresults, ?_, ?_, [], ?_, by simp⟩
  · exact List.forall_mem_map.2 fun p _ => ⟨false, backgrounds, .idle p (.inr (.inr rfl))⟩
  · exact hcues ▸ .refl _
  · rw [hcues, List.append_nil]

namespace Heeds

theorem nil : t.Heeds b [] [] [] [] b :=
  ⟨.nil, id, fun _ => ⟨rfl, by simp⟩, .inl (by simp)⟩

/-- What follows the first failure is done with the wish to stop. -/
theorem append (h : t.Heeds b cues ps rs ss c) (h' : t.Heeds c cues' ps' rs' ss' d) :
    t.Heeds b (cues ++ cues') (ps ++ ps') (rs ++ rs') (ss ++ ss') d where
  covers := h.covers.append h'.covers
  rises hb := h'.rises (h.rises hb)
  barred hb := by
    obtain ⟨hcues, hspared⟩ := h.barred hb
    obtain ⟨hcues', hspared'⟩ := h'.barred (h.rises hb)
    exact ⟨by rw [hcues, hcues']; rfl, List.forall_mem_append.2 ⟨hspared, hspared'⟩⟩
  first := by
    rcases h.first with hnone | ⟨hc, f, hf⟩
    · rcases h'.first with hnone' | ⟨hd, f, hf⟩
      · exact .inl (List.forall_mem_append.2 ⟨hnone, hnone'⟩)
      · refine .inr ⟨hd, { f with before := ss ++ f.before, earlier := cues ++ f.earlier }, ?_⟩
        refine ⟨?_, ?_, List.forall_mem_append.2 ⟨hnone, hf.before⟩, hf.failed, hf.after,
          hf.around⟩
        · rw [hf.scenarios, List.append_assoc]
        · rw [hf.cues]
          simp [FirstFailure.later]
    · obtain ⟨hnil, hspared⟩ := h'.barred hc
      refine .inr ⟨h'.rises hc, { f with after := f.after ++ ss' }, ?_⟩
      refine ⟨?_, ?_, hf.before, hf.failed, List.forall_mem_append.2 ⟨hf.after, hspared⟩,
        hf.around⟩
      · rw [hf.scenarios, List.append_assoc, List.cons_append]
      · rw [hnil, List.append_nil]
        exact hf.cues

/-- The wish to stop may have come before the work was begun. -/
theorem mono (h : t.Heeds c cues ps rs ss d) (hb : b = true → c = true) :
    t.Heeds b cues ps rs ss d :=
  ⟨h.covers, fun h' => h.rises (hb h'), fun h' => h.barred (hb h'), h.first⟩

/-- The node around the scenarios is begun without the wish to stop, and left in any case. -/
theorem around (h : t.Heeds b cues ps rs ss c) {start : EnterCue} {p : Passage}
    (hstart : Cue.Surrounds t.options (.enter start)) (hp : p.Surrounds t.options)
    (hend : c = true → d = true) :
    t.Heeds false (.enter start :: p.around cues) ps rs ss d where
  covers := h.covers.around hstart hp
  rises := Bool.noConfusion
  barred := Bool.noConfusion
  first := by
    refine h.first.imp_right fun ⟨hc, f, hf⟩ => ⟨hend hc, { f with
      earlier := .enter start :: p.before.map .slot ++ f.earlier
      around := f.around ++ [p] }, ?_⟩
    refine ⟨hf.scenarios, ?_, hf.before, hf.failed, hf.after,
      List.forall_mem_append.2 ⟨hf.around, List.forall_mem_singleton.2 hp⟩⟩
    rw [hf.cues]
    simp [FirstFailure.later, Passage.around]

/-- Scenarios to which the run does not come. -/
theorem idle (t : Terms) (b : Bool) (backgrounds : List Background) (ps : List PlannedScenario) :
    t.Heeds b [] ps (ps.map (·.skipped backgrounds)) (ps.map (.idle backgrounds)) b := by
  have hspared : ∀ s ∈ ps.map (ScenarioAccount.idle backgrounds), s.Spared := by
    refine List.forall_mem_map.2 fun p _ => ?_
    have hsound : (ScenarioAccount.idle backgrounds p).Sound t false backgrounds :=
      .idle p (.inr (.inr rfl))
    exact hsound.spared rfl
  exact ⟨.idle t backgrounds ps, id, fun _ => ⟨rfl, hspared⟩,
    .inl fun s hs => (hspared s hs).isFailure_eq_false⟩

end Heeds

end Terms

namespace Work

theorem course_runScenario_stopped {backgrounds : List Background} {p : PlannedScenario}
    {r : ScenarioResult} (hb : b = true)
    (h : (t.options.runScenario backgrounds p).Course t.company b cues r c) :
    r = p.skipped backgrounds := by
  obtain ⟨-, hskipped, -⟩ | ⟨-, hlet, -⟩ := course_selected h
  · exact hskipped
  · exact absurd (hlet.rises hb) Bool.false_ne_true

/-- A scenario that fails in the end stops the run. -/
theorem stopped_of_isFailure (hfirst : t.options.stopOnFailure = true)
    {backgrounds : List Background} {p : PlannedScenario} {r : ScenarioResult}
    (h : (t.options.runScenario backgrounds p).Course t.company b cues r c)
    (hfail : r.status.isFailure = true) : c = true := by
  have hskipped : (p.skipped backgrounds).status.isFailure = false := rfl
  obtain ⟨-, rfl, -⟩ | ⟨-, -, htried⟩ := course_selected h
  · rw [hskipped] at hfail
    cases hfail
  · obtain ⟨first, tried, b₁, second, rfl, h₁, h₂⟩ := course_seq htried
    split at h₂
    · obtain ⟨third, _, b₂, fourth, rfl, h₃, h₄⟩ := course_seq h₂
      obtain ⟨-, rfl, rfl⟩ := course_pure h₄
      exact (course_stop h₃).2
    · rename_i hgo
      obtain ⟨-, rfl, -⟩ := course_pure h₂
      rw [hfail, hfirst] at hgo
      exact absurd rfl hgo

section Each

variable {A B : Type} {scenarios : A → List PlannedScenario} {shown : B → List ScenarioResult}

/-- Work on the members of a list heeds the wish to stop if the work on each of them does. -/
theorem exists_heeds_each {f : A → Work B}
    (hmember : ∀ {a b cues r c}, (c = true → t.stopped = true) →
      (f a).Course t.company b cues r c → ∃ ss, t.Heeds b cues (scenarios a) (shown r) ss c)
    {as : List A} {rs : List B} (hstop : c = true → t.stopped = true)
    (h : (each f as).Course t.company b cues rs c) :
    ∃ ss, t.Heeds b cues (as.flatMap scenarios) (rs.flatMap shown) ss c := by
  induction as generalizing b cues rs with
  | nil =>
    obtain ⟨rfl, rfl, rfl⟩ := course_pure h
    exact ⟨[], .nil⟩
  | cons a rest ih =>
    obtain ⟨first, r, b₁, second, rfl, h₁, h₂⟩ := course_seq h
    obtain ⟨third, more, b₂, fourth, rfl, h₃, h₄⟩ := course_seq h₂
    obtain ⟨rfl, rfl, rfl⟩ := course_pure h₄
    obtain ⟨ss, hss⟩ := hmember (fun hb₁ => hstop (h₃.pairwise_rises.1 hb₁)) h₁
    obtain ⟨us, hus⟩ := ih h₃
    rw [List.append_nil]
    exact ⟨ss ++ us, hss.append hus⟩

/-- Members to which the run does not come. -/
theorem exists_heeds_map {g : A → B}
    (hmember : ∀ a, ∃ ss, t.Heeds b [] (scenarios a) (shown (g a)) ss b) (as : List A) :
    ∃ ss, t.Heeds b [] (as.flatMap scenarios) ((as.map g).flatMap shown) ss b := by
  induction as with
  | nil => exact ⟨[], .nil⟩
  | cons a rest ih =>
    obtain ⟨ss, hss⟩ := hmember a
    obtain ⟨us, hus⟩ := ih
    exact ⟨ss ++ us, hss.append hus⟩

end Each

/-- A node is passed over if it is not selected or the run is to stop; otherwise it is entered and
left, and what lies in it heeds the wish to stop. -/
theorem exists_heeds_visit (n : HookScope) (hlevel : n.level = .rule ∨ n.level = .feature)
    {selected : Bool} {skipped : β} {values : List (String × Datum)} {tags : TagSet}
    (htags : tags.tags = n.tags) {body : NodeEntry → Work α} {status : NodeEntry → α → Status}
    {result : α → HookReport → β} {r : β} (shown : β → List ScenarioResult)
    (hskipped : ∀ b, ∃ ss, t.Heeds b [] ps (shown skipped) ss b)
    (hbody : ∀ {entry b cues parts c} report, (c = true → t.stopped = true) →
      (body entry).Course t.company b cues parts c →
      ∃ ss, t.Heeds b cues ps (shown (result parts report)) ss c)
    (hstop : c = true → t.stopped = true)
    (h : (if selected then do
      if ← Work.isStopped then return skipped
      else
        enter n.level values
        let entry ← t.options.enterNode tags n.before n
        let inside ← body entry
        let report ← t.options.exitNode entry n.before.closing n (status entry inside)
        leave
        return result inside report
      else return skipped : Work β).Course t.company b cues r c) :
    ∃ ss, t.Heeds b cues ps (shown r) ss c := by
  obtain ⟨rfl, rfl, hlet, -⟩ | ⟨-, hlet, hvisit⟩ := course_selected h
  · obtain ⟨ss, hss⟩ := hskipped c
    exact ⟨ss, hss.mono hlet.rises⟩
  · obtain ⟨start, passage, entry, inside, within, b₁, b₂, hvisited, -, -, hinside, hend, rfl,
      rfl⟩ := course_visit n htags hvisit
    obtain ⟨ss, hss⟩ := hbody (.ofSlots passage.slots) (fun hb₂ => hstop (hend hb₂)) hinside
    have hsurrounds : passage.Surrounds t.options :=
      ⟨n, _, hvisited.crosses, hlevel.imp_right .inl⟩
    have hstart : Cue.Surrounds t.options (.enter start) := by
      rw [Cue.Surrounds, hvisited.level]
      exact hlevel.imp_right .inl
    exact ⟨ss, (hss.around hstart hsurrounds hend).mono hlet.rises⟩

theorem exists_heeds_skipped (b : Bool) (around : List Background) (p : PlannedChild) :
    ∃ ss, t.Heeds b [] p.scenarios (p.skipped around).scenarios ss b := by
  cases p with
  | scenario p => exact ⟨_, .idle t b around [p]⟩
  | rule p => exact ⟨_, .idle t b (p.backgrounds around) p.scenarios⟩

theorem exists_heeds_barred (b : Bool) (around : List Background) (p : PlannedChild) :
    ∃ ss, t.Heeds b [] p.scenarios (p.barred around).scenarios ss b := by
  cases p with
  | scenario p => exact ⟨_, .idle t b around [p]⟩
  | rule p => exact ⟨_, .idle t b around p.scenarios⟩

theorem exists_heeds_skipped_feature (b : Bool) (p : PlannedFeature) :
    ∃ ss, t.Heeds b [] p.scenarios p.skipped.scenarios ss b :=
  exists_heeds_map (exists_heeds_skipped b p.feature.backgrounds) p.children

section Heeds

variable (hfirst : t.options.stopOnFailure = true)
include hfirst

theorem exists_heeds_runScenario {backgrounds : List Background} {p : PlannedScenario}
    {r : ScenarioResult} (hstop : c = true → t.stopped = true)
    (h : (t.options.runScenario backgrounds p).Course t.company b cues r c) :
    ∃ ss, t.Heeds b cues [p] [r] ss c := by
  obtain ⟨a, ha, rfl, rfl, rfl⟩ := course_runScenario hstop h
  refine ⟨[a], .single ha, h.pairwise_rises.1, fun hb => ?_, ?_⟩
  · have hspared : a.Spared := ha.spared (by rw [course_runScenario_stopped hb h]; rfl)
    exact ⟨hspared.calls, List.forall_mem_singleton.2 hspared⟩
  · cases hfail : a.result.status.isFailure with
    | false => exact .inl (List.forall_mem_singleton.2 hfail)
    | true =>
      refine .inr ⟨stopped_of_isFailure hfirst h hfail, ⟨[], a, [], [], []⟩, ?_⟩
      constructor <;> simp [hfail, FirstFailure.later]

theorem exists_heeds_runScenarios {backgrounds : List Background}
    (hstop : c = true → t.stopped = true)
    (h : (t.options.runScenarios backgrounds ps).Course t.company b cues rs c) :
    ∃ ss, t.Heeds b cues ps rs ss c := by
  rw [runScenarios_eq_each] at h
  have hheeds : ∃ ss, t.Heeds b cues (ps.flatMap fun p => [p]) (rs.flatMap fun r => [r]) ss c :=
    exists_heeds_each (exists_heeds_runScenario hfirst) hstop h
  rwa [List.flatMap_singleton', List.flatMap_singleton'] at hheeds

theorem exists_heeds_runRule {around : List Background} {p : PlannedRule} {r : RuleResult}
    (hstop : c = true → t.stopped = true)
    (h : (t.options.runRule around p).Course t.company b cues r c) :
    ∃ ss, t.Heeds b cues p.scenarios r.scenarios ss c := by
  unfold RunOptions.runRule at h
  refine exists_heeds_visit (.rule p.rule) (.inl rfl) rfl (·.scenarios)
    (fun b => ⟨_, .idle t b (p.backgrounds around) p.scenarios⟩)
    (fun report hinner hinside => ?_) hstop h
  split at hinside
  · exact exists_heeds_runScenarios hfirst hinner hinside
  · obtain ⟨rfl, rfl, rfl⟩ := course_pure hinside
    exact ⟨_, .idle t _ (p.backgrounds around) p.scenarios⟩

theorem exists_heeds_runChild {around : List Background} {p : PlannedChild} {r : ChildResult}
    (hstop : c = true → t.stopped = true)
    (h : (t.options.runChild around p).Course t.company b cues r c) :
    ∃ ss, t.Heeds b cues p.scenarios r.scenarios ss c := by
  cases p with
  | scenario p =>
    obtain ⟨first, result, b₁, second, rfl, h₁, h₂⟩ := course_seq h
    obtain ⟨rfl, rfl, rfl⟩ := course_pure h₂
    rw [List.append_nil]
    exact exists_heeds_runScenario hfirst hstop h₁
  | rule p =>
    obtain ⟨first, result, b₁, second, rfl, h₁, h₂⟩ := course_seq h
    obtain ⟨rfl, rfl, rfl⟩ := course_pure h₂
    rw [List.append_nil]
    exact exists_heeds_runRule hfirst hstop h₁

theorem exists_heeds_runFeature {p : PlannedFeature} {r : FeatureResult}
    (hstop : c = true → t.stopped = true)
    (h : (t.options.runFeature p).Course t.company b cues r c) :
    ∃ ss, t.Heeds b cues p.scenarios r.scenarios ss c := by
  unfold RunOptions.runFeature at h
  refine exists_heeds_visit (.feature p.feature) (.inr rfl) rfl (·.scenarios)
    (fun b => exists_heeds_skipped_feature b p) (fun report hinner hinside => ?_) hstop h
  split at hinside
  · rw [runChildren_eq_each] at hinside
    exact exists_heeds_each (exists_heeds_runChild hfirst) hinner hinside
  · obtain ⟨rfl, rfl, rfl⟩ := course_pure hinside
    exact exists_heeds_map (exists_heeds_barred _ p.feature.backgrounds) p.children

/-- A whole run heeds the wish to stop. -/
theorem exists_heeds_runPlan {p : Plan} {ending : Except FatalError RunResult}
    (hstop : t.stopped = c) (h : (t.options.runPlan p).Course t.company b cues ending c) :
    ∃ (a : RunAccount) (ss : List ScenarioAccount), a.Sound t b p ∧ a.ending = ending ∧
      t.Heeds false cues (p.features.flatMap PlannedFeature.scenarios) a.result.scenarios ss c := by
  obtain ⟨c₁, opening, d₁, e₁, rfl, h₁, g₁⟩ := course_seq h
  obtain ⟨c₂, fs, d₂, e₂, rfl, h₂, g₂⟩ := course_seq g₁
  have hend : d₂ = true → c = true := g₂.pairwise_rises.1
  obtain ⟨start, before, rfl, hopening⟩ := course_openRun h₁
  have hheeds : ∃ ss, t.Heeds d₁ c₂ (p.features.flatMap PlannedFeature.scenarios)
      (scenariosOf fs) ss d₂ := by
    split at h₂
    · obtain ⟨rfl, rfl, rfl⟩ := course_pure h₂
      exact exists_heeds_map (exists_heeds_skipped_feature _) p.features
    · rw [runFeatures_eq_each] at h₂
      exact exists_heeds_each (exists_heeds_runFeature hfirst)
        (fun hd₂ => hstop.trans (hend hd₂)) h₂
  obtain ⟨ss, hss⟩ := hheeds
  obtain ⟨as, hinside, hplanned, rfl, -⟩ := course_features hopening.fatal hopening.enters.stops
    (fun hd₂ => hstop.trans (hend hd₂)) h₂
  obtain ⟨a, ha, hending, rfl, hstart, rfl, rfl⟩ :=
    course_closeRun hopening hplanned hinside hstop g₂
  have hlevel : Cue.Surrounds t.options (.enter a.start) := by
    rw [Cue.Surrounds, ha.visited.level]
    exact .inr (.inr rfl)
  have hround := hss.around hlevel ⟨.suite, _, ha.visited.crosses, .inr (.inr rfl)⟩ hend
  rw [← ha.features_result] at hround
  refine ⟨a, ss, ha, hending, ?_⟩
  rw [hstart] at hround
  simpa [Passage.around, RunResult.scenarios] using hround

end Heeds

end Work

namespace Runner

/-- With `stopOnFailure`, at most one scenario of a run fails. If one does, those after it are
skipped without being tried, and all that is called after it are the slots on leaving the nodes
around it; the run counts as cancelled, and that scenario is the only one to run again. -/
theorem stops_at_first_failure (r : Runner W) (suite : Suite) (world : W) (cancelled : Bool)
    (hfirst : r.options.stopOnFailure = true) (hvalid : suite.violation? = none) :
    ∃ result ss, (r.run suite world cancelled).report? = some result ∧
      (r.terms suite world cancelled).Covers (r.cues suite world cancelled)
        ((r.options.plan suite).features.flatMap PlannedFeature.scenarios) result.scenarios ss ∧
      (result.failing = [] ∨ ∃ f : FirstFailure,
        f.Divides r.options (r.cues suite world cancelled) ss ∧
        result.failing = [f.failed.result] ∧ result.cancelled = true ∧
        result.rerun = [f.failed.result.id]) := by
  obtain ⟨ending, hcourse, hresult⟩ := r.course_run suite world cancelled hvalid
  obtain ⟨a, ss, ha, rfl, hheeds⟩ :=
    Work.exists_heeds_runPlan (t := r.terms suite world cancelled) hfirst rfl hcourse
  refine ⟨a.result, ss, Ended.report?_eq hresult, hheeds.covers, ?_⟩
  have hfailing : a.result.failing = (ss.filter (·.result.status.isFailure)).map (·.result) := by
    rw [RunResult.failing, ← hheeds.covers.results, List.filter_map]
    rfl
  rcases hheeds.first with hnone | ⟨hstopped, f, hf⟩
  · left
    rw [hfailing, List.map_eq_nil_iff, List.filter_eq_nil_iff]
    intro s hs
    rw [hnone s hs]
    exact Bool.false_ne_true
  · right
    rw [hf.filter_eq] at hfailing
    refine ⟨f, hf, hfailing, ?_, ?_⟩
    · rw [ha.result]
      exact hstopped
    · have hrerun : a.result.rerun = ScenarioId.sorted (a.result.failing.map (·.id)) := by
        rw [ha.result]
        rfl
      rw [hrerun, hfailing]
      rfl

/-- The second of four scenarios fails twice; one of those after it lies in the same rule, the other
in another feature. -/
theorem stops_at_first_failure_rule :
    let hooks : Hooks Unit := Hooks.none.register .afterScenario fun e =>
      .done (if e.name = "second" then .error "boom" false else .ok)
    let r := { ofHooks hooks with
      options := { RunOptions.default with stopOnFailure := true, retry := some ⟨2, .all⟩ } }
    let rule := { Rule.named "rule" with
      children := [.scenario (.named "second"), .scenario (.named "third")] }
    let suite : Suite := ⟨[
      { Feature.named "feature" with
        children := [.definition (.scenario (.named "first")), .rule rule] },
      { Feature.named "other" with children := [.definition (.scenario (.named "fourth"))] }]⟩
    ∃ (result : RunResult) (ss : List ScenarioAccount) (f : FirstFailure),
      (r.run suite () false).report? = some result ∧
      f.Divides r.options (r.cues suite () false) ss ∧
      result.scenarios.map (fun s => (s.attempts, s.status)) =
        [(1, .passed), (2, .error), (0, .skipped), (0, .skipped)] ∧
      f.failed.result.attempts = 2 := by
  intro hooks r rule suite
  obtain ⟨result, ss, hreport, hcovers, hfirst⟩ :=
    r.stops_at_first_failure suite () false rfl (by decide)
  have hscenarios : (r.run suite () false).report?.map (fun result =>
      result.scenarios.map fun s => (s.attempts, s.status)) =
        some [(1, .passed), (2, .error), (0, .skipped), (0, .skipped)] := by decide
  have hfailing : (r.run suite () false).report?.map (fun result =>
      result.failing.map (·.attempts)) = some [2] := by decide
  rw [hreport, Option.map_some, Option.some.injEq] at hscenarios hfailing
  rcases hfirst with hnone | ⟨f, hf, hfailed, -⟩
  · rw [hnone] at hfailing
    cases hfailing
  · rw [hfailed, List.map_singleton, List.singleton_inj] at hfailing
    exact ⟨result, ss, f, hreport, hf, hscenarios, hfailing⟩

end Runner

end Rehearsal
