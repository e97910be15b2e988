import Rehearsal.Proofs.Account.Moves

/-!
# Trails of scenarios

What is asked in a run for one scenario of its plan is a line of the work on that scenario, or
nothing at all (`ScenarioTrail.Goes`). `Runner.Shows` says that some scenarios, each with what was
asked for it, show how results have come about: nothing else that was asked begins an attempt at a
scenario. Every run that has ended is shown by the scenarios of its plan
(`Runner.Goes.exists_shows`), so what holds along all lines of the work on a scenario holds for
every scenario of every run.
-/

namespace Rehearsal

/-- Does the request begin an attempt at a scenario? -/
def Request.begins : Request → Bool
  | .enter .scenario _ => true
  | _ => false

namespace Work

/-- No request of the work is of the kind. -/
inductive Lacks (kind : Request → Bool) : Work α → Prop
  | done (a : α) : Lacks kind (.done a)
  | ask {q : Request} {next : q.Reply → Work α} (hq : kind q = false)
      (rest : ∀ reply, Lacks kind (next reply)) : Lacks kind (.ask q next)

section Lacks

variable {kind : Request → Bool} {o : RunOptions}

theorem Lacks.seq {w : Work α} {k : α → Work β} (hw : w.Lacks kind) (hk : ∀ a, (k a).Lacks kind) :
    (w >>= k).Lacks kind := by
  induction hw with
  | done a => exact hk a
  | ask hq rest ih => exact .ask hq fun reply => ih reply

theorem lacks_pure (a : α) : (pure a : Work α).Lacks kind := .done a

theorem lacks_request {q : Request} (hq : kind q = false) : (request q).Lacks kind :=
  .ask hq fun _ => .done _

variable (hstop : kind .stop = false)
include hstop

theorem lacks_slot {point : HookPoint} {scope : HookScope} {status : Option Status}
    (hslot : kind (.hooks ⟨point, scope, status⟩) = false) :
    (o.slot point scope status).Lacks kind := by
  unfold RunOptions.slot
  split
  · exact lacks_pure _
  · refine (lacks_request hslot).seq fun reply => ?_
    dsimp only
    split
    · split
      · exact (lacks_request hstop).seq fun _ => lacks_pure _
      · exact lacks_pure _
    · exact lacks_pure _

theorem lacks_enterTags (htags : ∀ name, kind (.hooks ⟨.beforeTag, .tag name, none⟩) = false)
    (e : NodeEntry) (tags : List Tag) : (o.enterTags e tags).Lacks kind := by
  induction tags generalizing e with
  | nil => exact lacks_pure e
  | cons tag rest ih =>
    refine (lacks_slot hstop (htags tag.name)).seq fun call => ?_
    dsimp only
    split
    · exact ih _
    · exact lacks_pure _

theorem lacks_enterNode (htags : ∀ name, kind (.hooks ⟨.beforeTag, .tag name, none⟩) = false)
    (tags : TagSet) {point : HookPoint} {scope : HookScope}
    (hnode : kind (.hooks ⟨point, scope, none⟩) = false) :
    (o.enterNode tags point scope).Lacks kind := by
  refine (lacks_enterTags hstop htags _ _).seq fun e => ?_
  split
  · exact (lacks_slot hstop hnode).seq fun call => lacks_pure _
  · exact lacks_pure _

section Exit

variable {status : Status}
  (htags : ∀ name, kind (.hooks ⟨.afterTag, .tag name, some status⟩) = false)
include htags

theorem lacks_exitTags (report : HookReport) (tags : List String) :
    (o.exitTags status report tags).Lacks kind := by
  induction tags generalizing report with
  | nil => exact lacks_pure report
  | cons tag rest ih => exact (lacks_slot hstop (htags tag)).seq fun call => ih _

theorem lacks_exitNode (e : NodeEntry) {point : HookPoint} {scope : HookScope}
    (hnode : kind (.hooks ⟨point, scope, some status⟩) = false) :
    (o.exitNode e point scope status).Lacks kind := by
  unfold RunOptions.exitNode
  split
  · exact (lacks_slot hstop hnode).seq fun call => lacks_exitTags hstop htags _ _
  · exact lacks_exitTags hstop htags _ _

end Exit

end Lacks

theorem lacks_openRun (o : RunOptions) : o.openRun.Lacks Request.begins :=
  Lacks.seq (lacks_request rfl) fun _ => (lacks_slot rfl rfl).seq fun _ => lacks_pure _

theorem lacks_closeRun (o : RunOptions) (opening : Opening) (fs : List FeatureResult) :
    (o.closeRun opening fs).Lacks Request.begins := by
  refine Lacks.seq (lacks_slot rfl rfl) fun call => Lacks.seq (lacks_request rfl) fun _ =>
    Lacks.seq (lacks_request rfl) fun cancelled => ?_
  dsimp only
  split <;> exact lacks_pure _

end Work

theorem Runner.Line.lacks {r : Runner W} {w : Work α} {c d : Context} {b : Bool}
    {xs : List (Turn W)} {a : α} {kind : Request → Bool} (h : r.Line w c b xs a d)
    (hw : w.Lacks kind) : ∀ x ∈ xs, kind x.request = false := by
  induction h with
  | done => simp
  | ask hfound hrises rest ih =>
    cases hw with
    | ask hq hrest => exact List.forall_mem_cons.2 ⟨hq, ih (hrest _)⟩

/-- A scenario of a plan with what was asked for it, and its result. -/
structure ScenarioTrail (W : Type) where
  planned : PlannedScenario
  backgrounds : List Background
  turns : List (Turn W)
  result : ScenarioResult

namespace ScenarioTrail

/-- A scenario that the run has not come to. -/
def idle (backgrounds : List Background) (p : PlannedScenario) : ScenarioTrail W :=
  ⟨p, backgrounds, [], p.skipped backgrounds⟩

/-- The run has not come to the scenario, or has gone along a line of the work on it. -/
def Goes (r : Runner W) (s : ScenarioTrail W) : Prop :=
  s = idle s.backgrounds s.planned ∨
    ∃ c d, r.Line (r.options.runScenario s.backgrounds s.planned) c false s.turns s.result d

end ScenarioTrail

/-- The turns of a list show how scenarios have come to their results. -/
structure Runner.Shows (r : Runner W) (xs : List (Turn W)) (ps : List PlannedScenario)
    (rs : List ScenarioResult) (ss : List (ScenarioTrail W)) : Prop where
  planned : ss.map (·.planned) = ps
  results : ss.map (·.result) = rs
  goes : ∀ s ∈ ss, s.Goes r
  sublist : ∀ s ∈ ss, s.turns.Sublist xs
  /-- What is not asked for one of the scenarios begins no attempt. -/
  others : ∃ others, xs.Perm (ss.flatMap (·.turns) ++ others) ∧
    ∀ x ∈ others, x.request.begins = false

namespace Runner

variable {r : Runner W} {xs ys : List (Turn W)} {ps qs : List PlannedScenario}
  {rs ts : List ScenarioResult} {ss us : List (ScenarioTrail W)}

namespace Shows

theorem nil : r.Shows [] [] [] [] :=
  ⟨rfl, rfl, by simp, by simp, [], by simp, by simp⟩

theorem append (hxs : r.Shows xs ps rs ss) (hys : r.Shows ys qs ts us) :
    r.Shows (xs ++ ys) (ps ++ qs) (rs ++ ts) (ss ++ us) where
  planned := by rw [List.map_append, hxs.planned, hys.planned]
  results := by rw [List.map_append, hxs.results, hys.results]
  goes s hs := (List.mem_append.1 hs).elim (hxs.goes s) (hys.goes s)
  sublist s hs := (List.mem_append.1 hs).elim
    (fun hs => (hxs.sublist s hs).trans (List.sublist_append_left _ _))
    (fun hs => (hys.sublist s hs).trans (List.sublist_append_right _ _))
  others := by
    obtain ⟨others, hperm, hquiet⟩ := hxs.others
    obtain ⟨others', hperm', hquiet'⟩ := hys.others
    refine ⟨others ++ others', ?_, List.forall_mem_append.2 ⟨hquiet, hquiet'⟩⟩
    refine (hperm.append hperm').trans ?_
    rw [List.flatMap_append, List.append_assoc, List.append_assoc]
    exact (List.perm_append_comm_assoc _ _ _).append_left _

/-- The same turns in another order, each scenario's in the same order. -/
theorem perm (h : r.Shows xs ps rs ss) (hperm : xs.Perm ys) (hsub : ∀ s ∈ ss, s.turns.Sublist ys) :
    r.Shows ys ps rs ss := by
  obtain ⟨others, hothers, hquiet⟩ := h.others
  exact ⟨h.planned, h.results, h.goes, hsub, others, hperm.symm.trans hothers, hquiet⟩

/-- Nothing that is shown begins in what lies around it. -/
theorem around (h : r.Shows xs ps rs ss) {before after : List (Turn W)}
    (hbefore : ∀ x ∈ before, x.request.begins = false)
    (hafter : ∀ x ∈ after, x.request.begins = false) :
    r.Shows (before ++ xs ++ after) ps rs ss := by
  have hquiet : ∀ {zs : List (Turn W)}, (∀ x ∈ zs, x.request.begins = false) →
      r.Shows zs [] [] [] := fun hzs => ⟨rfl, rfl, by simp, by simp, _, .refl _, hzs⟩
  have hshows := ((hquiet hbefore).append h).append (hquiet hafter)
  simpa only [List.nil_append, List.append_nil] using hshows

theorem cons (h : r.Shows xs ps rs ss) {x : Turn W} (hx : x.request.begins = false) :
    r.Shows (x :: xs) ps rs ss := by
  have hshows : r.Shows ([x] ++ xs ++ []) ps rs ss := h.around (by simpa using hx) (by simp)
  rwa [List.append_nil] at hshows

/-- What shows one result comes from one trail. -/
theorem exists_single (h : r.Shows xs ps rs ss) {f : ScenarioResult → α} {a : α}
    (hone : rs.map f = [a]) : ∃ s, ss = [s] ∧ f s.result = a := by
  rw [← h.results, List.map_map] at hone
  exact List.map_eq_singleton_iff.1 hone

theorem idle (r : Runner W) (backgrounds : List Background) (ps : List PlannedScenario) :
    r.Shows [] ps (ps.map (·.skipped backgrounds)) (ps.map (.idle backgrounds)) where
  planned := by
    rw [List.map_map]
    exact List.map_id ps
  results := List.map_map
  goes s hs := by
    obtain ⟨p, -, rfl⟩ := List.mem_map.1 hs
    exact .inl rfl
  sublist s hs := by
    obtain ⟨p, -, rfl⟩ := List.mem_map.1 hs
    exact List.Sublist.refl _
  others := by
    refine ⟨[], ?_, by simp⟩
    rw [List.append_nil, List.flatMap_map]
    simp [ScenarioTrail.idle]

end Shows

section Each

variable {A B : Type} {scenarios : A → List PlannedScenario} {shown : B → List ScenarioResult}

/-- Work on the members of a list shows what the work on each of them shows. -/
theorem exists_shows_each {f : A → Work B}
    (hmember : ∀ {a c b xs x d}, r.Line (f a) c b xs x d →
      ∃ ss, r.Shows xs (scenarios a) (shown x) ss)
    {as : List A} {bs : List B} {c d : Context} {b : Bool}
    (h : r.Line (Work.each f as) c b xs bs d) :
    ∃ ss, r.Shows xs (as.flatMap scenarios) (bs.flatMap shown) ss := by
  induction as generalizing c b xs bs with
  | nil =>
    obtain ⟨rfl, rfl, rfl⟩ := h.of_pure
    exact ⟨[], .nil⟩
  | cons a rest ih =>
    obtain ⟨first, x, c₁, second, rfl, h₁, h₂⟩ := h.of_seq
    obtain ⟨third, more, c₂, fourth, rfl, h₃, h₄⟩ := h₂.of_seq
    obtain ⟨rfl, rfl, rfl⟩ := h₄.of_pure
    obtain ⟨ss, hss⟩ := hmember h₁
    obtain ⟨us, hus⟩ := ih h₃
    rw [List.append_nil]
    exact ⟨ss ++ us, hss.append hus⟩

/-- Members to which the run has not come. -/
theorem exists_shows_map {g : A → B}
    (hmember : ∀ a, ∃ ss, r.Shows [] (scenarios a) (shown (g a)) ss) (as : List A) :
    ∃ ss, r.Shows [] (as.flatMap scenarios) ((as.map g).flatMap shown) ss := by
  induction as with
  | nil => exact ⟨[], .nil⟩
  | cons a rest ih =>
    obtain ⟨ss, hss⟩ := hmember a
    obtain ⟨us, hus⟩ := ih
    exact ⟨ss ++ us, hss.append hus⟩

end Each

section Unreached

variable (r : Runner W)

theorem exists_shows_skipped (around : List Background) (p : PlannedChild) :
    ∃ ss, r.Shows [] p.scenarios (p.skipped around).scenarios ss := by
  cases p with
  | scenario p => exact ⟨_, .idle r around [p]⟩
  | rule p => exact ⟨_, .idle r (p.backgrounds around) p.scenarios⟩

theorem exists_shows_barred (around : List Background) (p : PlannedChild) :
    ∃ ss, r.Shows [] p.scenarios (p.barred around).scenarios ss := by
  cases p with
  | scenario p => exact ⟨_, .idle r around [p]⟩
  | rule p => exact ⟨_, .idle r around p.scenarios⟩

theorem exists_shows_skipped_feature (p : PlannedFeature) :
    ∃ ss, r.Shows [] p.scenarios p.skipped.scenarios ss :=
  exists_shows_map (r.exists_shows_skipped p.feature.backgrounds) p.children

end Unreached

namespace Line

variable {c d : Context} {b : Bool}

theorem shows_runScenario {backgrounds : List Background} {p : PlannedScenario}
    {result : ScenarioResult}
    (h : r.Line (r.options.runScenario backgrounds p) c b xs result d) :
    r.Shows xs [p] [result] [⟨p, backgrounds, xs, result⟩] where
  planned := rfl
  results := rfl
  goes s hs := by
    obtain rfl := List.mem_singleton.1 hs
    exact .inr ⟨c, d, h.mono Bool.noConfusion⟩
  sublist s hs := by
    obtain rfl := List.mem_singleton.1 hs
    exact List.Sublist.refl xs
  others := ⟨[], by simp, by simp⟩

theorem exists_shows_runScenarios {backgrounds : List Background}
    (h : r.Line (r.options.runScenarios backgrounds ps) c b xs rs d) :
    ∃ ss, r.Shows xs ps rs ss := by
  rw [Work.runScenarios_eq_each] at h
  have hshows : ∃ ss, r.Shows xs (ps.flatMap fun p => [p]) (rs.flatMap fun x => [x]) ss :=
    exists_shows_each (fun hmember => ⟨_, hmember.shows_runScenario⟩) h
  rwa [List.flatMap_singleton', List.flatMap_singleton'] at hshows

/-- The question whether the run is to stop, with what comes after either reply. -/
theorem of_poll {k : Bool → Work α} {a : α} (h : r.Line (Work.isStopped >>= k) c b xs a d) :
    ∃ (s : Stage W) (rest : List (Turn W)), xs = ⟨s, .isStopped⟩ :: rest ∧
      r.Line (k s.isStopped) c false rest a d := by
  obtain ⟨first, _, c', rest, rfl, hpoll, hrest⟩ := h.of_seq
  obtain ⟨s, rfl, rfl, rfl, rfl⟩ := hpoll.of_request
  exact ⟨s, rest, rfl, hrest⟩

/-- A node that is passed over if it is not selected or the run is to stop, and is entered and left
otherwise, shows what it shows when it is passed over or what lies in it shows. -/
theorem exists_shows_visit {level : ScopeLevel} (hlevel : level ≠ .scenario) {o : RunOptions}
    {selected : Bool} {skipped : β} {values : List (String × Datum)} {tags : TagSet}
    {before after : HookPoint} {scope : HookScope} {inside : NodeEntry → Work α}
    {status : NodeEntry → α → Status} {result : α → HookReport → β} {a : β}
    (shown : β → List ScenarioResult)
    (hskipped : ∃ ss, r.Shows [] ps (shown skipped) ss)
    (hinside : ∀ {entry c b xs parts d} report, r.Line (inside entry) c b xs parts d →
      ∃ ss, r.Shows xs ps (shown (result parts report)) ss)
    (h : r.Line (if selected then do
      if ← Work.isStopped then return skipped
      else
        Work.enter level values
        let entry ← o.enterNode tags before scope
        let parts ← inside entry
        let report ← o.exitNode entry after scope (status entry parts)
        Work.leave
        return result parts report
      else return skipped : Work β) c b xs a d) :
    ∃ ss, r.Shows xs ps (shown a) ss := by
  split at h
  · obtain ⟨s, rest, rfl, hrest⟩ := h.of_poll
    split at hrest
    · obtain ⟨rfl, rfl, rfl⟩ := hrest.of_pure
      obtain ⟨ss, hss⟩ := hskipped
      exact ⟨ss, hss.cons rfl⟩
    · obtain ⟨xs₁, _, c₁, _, rfl, h₁, g₁⟩ := hrest.of_seq
      obtain ⟨xs₂, entry, c₂, _, rfl, h₂, g₂⟩ := g₁.of_seq
      obtain ⟨xs₃, parts, c₃, _, rfl, h₃, g₃⟩ := g₂.of_seq
      obtain ⟨xs₄, report, c₄, _, rfl, h₄, g₄⟩ := g₃.of_seq
      obtain ⟨xs₅, _, c₅, _, rfl, h₅, g₅⟩ := g₄.of_seq
      obtain ⟨rfl, rfl, rfl⟩ := g₅.of_pure
      -- neither on entering the node nor on leaving it an attempt is begun
      have hbegin : Request.begins (.enter level values) = false := by
        cases level <;> first | rfl | exact absurd rfl hlevel
      have hopening : ∀ x ∈ xs₁ ++ xs₂, x.request.begins = false :=
        List.forall_mem_append.2 ⟨h₁.lacks (Work.lacks_request hbegin),
          h₂.lacks (Work.lacks_enterNode rfl (fun _ => rfl) _ rfl)⟩
      have hclosing : ∀ x ∈ xs₄ ++ xs₅, x.request.begins = false :=
        List.forall_mem_append.2 ⟨h₄.lacks (Work.lacks_exitNode rfl (fun _ => rfl) _ rfl),
          h₅.lacks (Work.lacks_request rfl)⟩
      obtain ⟨ss, hss⟩ := hinside report h₃
      have hshows := (hss.around hopening hclosing).cons (x := ⟨s, .isStopped⟩) rfl
      exact ⟨ss, by simpa using hshows⟩
  · obtain ⟨rfl, rfl, rfl⟩ := h.of_pure
    exact hskipped

theorem exists_shows_runRule {around : List Background} {p : PlannedRule} {result : RuleResult}
    (h : r.Line (r.options.runRule around p) c b xs result d) :
    ∃ ss, r.Shows xs p.scenarios result.scenarios ss := by
  have hidle := Shows.idle r (p.backgrounds around) p.scenarios
  unfold RunOptions.runRule at h
  refine exists_shows_visit (show ScopeLevel.rule ≠ .scenario by decide) (·.scenarios) ⟨_, hidle⟩
    (fun report hinside => ?_) h
  split at hinside
  · exact exists_shows_runScenarios hinside
  · obtain ⟨rfl, rfl, rfl⟩ := hinside.of_pure
    exact ⟨_, hidle⟩

theorem exists_shows_runChild {around : List Background} {p : PlannedChild} {result : ChildResult}
    (h : r.Line (r.options.runChild around p) c b xs result d) :
    ∃ ss, r.Shows xs p.scenarios result.scenarios ss := by
  cases p with
  | scenario p =>
    obtain ⟨first, result, c', second, rfl, hfirst, hsecond⟩ := h.of_seq
    obtain ⟨rfl, rfl, rfl⟩ := hsecond.of_pure
    rw [List.append_nil]
    exact ⟨_, hfirst.shows_runScenario⟩
  | rule p =>
    obtain ⟨first, result, c', second, rfl, hfirst, hsecond⟩ := h.of_seq
    obtain ⟨rfl, rfl, rfl⟩ := hsecond.of_pure
    rw [List.append_nil]
    exact hfirst.exists_shows_runRule

theorem exists_shows_runFeature {p : PlannedFeature} {result : FeatureResult}
    (h : r.Line (r.options.runFeature p) c b xs result d) :
    ∃ ss, r.Shows xs p.scenarios result.scenarios ss := by
  unfold RunOptions.runFeature at h
  refine exists_shows_visit (show ScopeLevel.feature ≠ .scenario by decide) (·.scenarios)
    (r.exists_shows_skipped_feature p) (fun report hinside => ?_) h
  split at hinside
  · rw [Work.runChildren_eq_each] at hinside
    exact exists_shows_each exists_shows_runChild hinside
  · obtain ⟨rfl, rfl, rfl⟩ := hinside.of_pure
    exact exists_shows_map (r.exists_shows_barred p.feature.backgrounds) p.children

end Line

/-- Features with what was asked for each of them. -/
theorem exists_shows_features (xss : Nat → List (Turn W)) (qs : List PlannedFeature)
    (fs : List FeatureResult) (hlength : fs.length = qs.length)
    (h : ∀ i q, qs[i]? = some q → ∃ f ss, fs[i]? = some f ∧
      r.Shows (xss i) q.scenarios f.scenarios ss) :
    ∃ ss, r.Shows ((List.range qs.length).flatMap xss) (qs.flatMap PlannedFeature.scenarios)
        (scenariosOf fs) ss ∧
      ∀ s ∈ ss, ∃ i < qs.length, s.turns.Sublist (xss i) := by
  induction qs generalizing fs xss with
  | nil =>
    obtain rfl := List.eq_nil_of_length_eq_zero hlength
    exact ⟨[], .nil, by simp⟩
  | cons q rest ih =>
    obtain ⟨f, ss, hf, hss⟩ := h 0 q rfl
    cases fs with
    | nil => cases hf
    | cons f' fs =>
      obtain rfl := Option.some.inj hf
      obtain ⟨us, hus, hsub⟩ := ih (fun i => xss (i + 1)) fs (Nat.succ.inj hlength)
        fun i q hq => h (i + 1) q hq
      refine ⟨ss ++ us, ?_, List.forall_mem_append.2 ⟨fun s hs => ?_, fun s hs => ?_⟩⟩
      · rw [List.length_cons, List.range_succ_eq_map, List.flatMap_cons, List.flatMap_map]
        exact hss.append hus
      · exact ⟨0, Nat.zero_lt_succ _, hss.sublist s hs⟩
      · obtain ⟨i, hi, hxs⟩ := hsub s hs
        exact ⟨i + 1, Nat.succ_lt_succ hi, hxs⟩

variable {suite : Suite} {world : W} {cancelled : Bool}

/-- What the workers of a run through moves have asked. -/
theorem exists_shows_crewTrail {moves : List Move} {fs : List FeatureResult}
    (hfs : r.featuresAfter? suite world cancelled moves = some fs) :
    ∃ ss, r.Shows ((r.crewTrail suite world cancelled moves).map (·.2))
      ((r.options.plan suite).features.flatMap PlannedFeature.scenarios) (scenariosOf fs) ss := by
  obtain ⟨ss, hss, hsub⟩ := exists_shows_features (r := r)
    (r.trailAfter suite world cancelled moves) (r.options.plan suite).features fs
    (length_features hfs) fun i p hp => by
      obtain ⟨f, hf, ⟨hnil, rfl⟩ | ⟨d, hline⟩⟩ := line_trailAfter hfs hp
      · obtain ⟨ss, hss⟩ := r.exists_shows_skipped_feature p
        rw [hnil]
        exact ⟨_, ss, hf, hss⟩
      · obtain ⟨ss, hss⟩ := hline.exists_shows_runFeature
        exact ⟨f, ss, hf, hss⟩
  refine ⟨ss, hss.perm (perm_trailAfter moves) fun s hs => ?_⟩
  obtain ⟨i, -, hi⟩ := hsub s hs
  exact hi.trans (List.filter_sublist.map _)

/-- Every run that has ended is shown by the scenarios of its plan. -/
theorem Goes.exists_shows {e : Ended W} (h : r.Goes suite world cancelled xs e) :
    ∃ result ss, e.report? = some result ∧
      r.Shows xs ((r.options.plan suite).features.flatMap PlannedFeature.scenarios)
        result.scenarios ss := by
  cases h with
  | inOrder hvalid =>
    have hline := r.line_perform (r.options.runPlan (r.options.plan suite)) (.start world cancelled)
    obtain ⟨xs₁, opening, c₁, _, hxs₁, h₁, g₁⟩ := hline.of_seq
    obtain ⟨xs₂, fs, c₂, xs₃, rfl, h₂, h₃⟩ := g₁.of_seq
    have hshows : ∃ ss, r.Shows xs₂
        ((r.options.plan suite).features.flatMap PlannedFeature.scenarios) (scenariosOf fs) ss := by
      split at h₂
      · obtain ⟨rfl, rfl, rfl⟩ := h₂.of_pure
        exact exists_shows_map r.exists_shows_skipped_feature _
      · rw [Work.runFeatures_eq_each] at h₂
        exact exists_shows_each Line.exists_shows_runFeature h₂
    obtain ⟨ss, hss⟩ := hshows
    obtain ⟨-, result, rfl, hending⟩ := Work.way_closeRun h₃.way
    refine ⟨result, ss, ?_, ?_⟩
    · rw [run, hvalid]
      rcases hending with hok | ⟨point, detail, herror⟩
      · simp only [Ended.report?, hok]
        rfl
      · simp only [Ended.report?, herror]
        rfl
    · rw [hxs₁, ← List.append_assoc]
      exact hss.around (h₁.lacks (Work.lacks_openRun _)) (h₃.lacks (Work.lacks_closeRun _ _ _))
  | @through moves fs hvalid hfs =>
    obtain ⟨result, hreport, rfl⟩ := r.report?_finish (r.opened world cancelled).2
      (r.stageAfter suite world cancelled moves) fs
    obtain ⟨ss, hss⟩ := exists_shows_crewTrail hfs
    have hopening := r.line_perform r.options.openRun (.start world cancelled)
    have hclosing := r.line_perform
      (r.options.closeRun (r.opened world cancelled).2 result.features)
      (r.stageAfter suite world cancelled moves)
    exact ⟨result, ss, hreport, hss.around (hopening.lacks (Work.lacks_openRun _))
      (hclosing.lacks (Work.lacks_closeRun _ _ _))⟩

end Runner

end Rehearsal
