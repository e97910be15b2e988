import Rehearsal.Proofs.Brackets
import Rehearsal.Proofs.Conduct
import Rehearsal.Proofs.Line
import Rehearsal.Proofs.Mirror

/-!
# Safety of parallel runs

Whatever the moves of a parallel run are, each worker goes along a line of the work on its feature
(`Runner.line_trailAfter`), and what holds along every such line is safe (`Runner.Line.safe`): the
calls for the feature are nested, nothing is started once it is read that the run is to stop, and a
feature that is not started is skipped without any call. A feature is passed over in this way if it
is not selected, after a fatal opening, and if it is read at its start that the run is to stop; one
that is started may have the same status in the end, since that is a matter of its scenarios.

The opening comes before all workers and the closing after them, so the slots of the run as a whole
are called first and last (`Runner.enclosed_finish`). `Runner.parallel_safe` puts this together.
-/

namespace Rehearsal

namespace Request

def isCall : Request → Bool
  | hooks _ | call _ _ => true
  | _ => false

end Request

/-- The calls of user code among some exchanges. -/
def callsOf (es : List Exchange) : List Request := (es.map (·.request)).filter (·.isCall)

theorem callsOf_append (first second : List Exchange) :
    callsOf (first ++ second) = callsOf first ++ callsOf second := by
  rw [callsOf, List.map_append, List.filter_append]
  rfl

namespace Turn

variable {r : Runner W} {x : Turn W}

/-- The cue that the request gives on the stage that it finds. -/
def cue? (r : Runner W) (x : Turn W) : Option Cue :=
  x.request.cue? x.stage.isStopped (r.answer x.stage x.request).2

/-- Is it read that the run is to stop? -/
def readsStop (r : Runner W) (x : Turn W) : Bool :=
  x.request.tells false (r.answer x.stage x.request).2

theorem cue?_ne_none (r : Runner W) (x : Turn W) (h : x.request.isStart = true) :
    x.cue? r ≠ none := by
  obtain ⟨s, q⟩ := x
  cases q with
  | enter level values => exact Option.some_ne_none _
  | find step => exact Option.some_ne_none _
  | _ => cases h

theorem filterMap_cue?_cons (r : Runner W) (x : Turn W) (xs : List (Turn W)) :
    (x :: xs).filterMap (·.cue? r) = (x.cue? r).toList ++ xs.filterMap (·.cue? r) := by
  rw [List.filterMap_cons]
  cases x.cue? r <;> rfl

/-- It is read only if it is so. -/
theorem isStopped_of_readsStop (h : x.readsStop r = true) :
    (r.answer x.stage x.request).1.isStopped = true := by
  obtain ⟨s, q⟩ := x
  cases q with
  | isStopped => exact h
  | _ => cases h

end Turn

theorem Request.tells_true {q : Request} {b c : Bool} {reply : q.Reply} (h : q.Admits b reply c)
    (hb : b = true) : q.tells true reply = true := by
  cases q with
  | isStopped => exact h.1.trans hb
  | _ => rfl

namespace Runner.Line

variable {r : Runner W} {w : Work α} {c d : Context} {b : Bool} {xs : List (Turn W)} {a : α}

/-- A line is a course of the work beside others. If the run is to stop in the end, it was so from
the beginning or one of the turns has left it so. -/
theorem course (h : r.Line w c b xs a d) :
    ∃ last, w.Course .others b (xs.filterMap (·.cue? r)) a last ∧
      (last = true → b = true ∨ ∃ x ∈ xs, (x.deed r).isStopped = true) := by
  induction h with
  | done a c b => exact ⟨b, .done a b, .inl⟩
  | @ask q next c d b s xs a hfound hrises rest ih =>
    obtain ⟨last, hcourse, hlast⟩ := ih
    have hask := Work.Course.ask (k := .others) hrises (r.admits_answer s q) hcourse
    rw [Turn.filterMap_cue?_cons]
    refine ⟨last, hask, fun hstop => .inr ?_⟩
    rcases hlast hstop with hleft | ⟨x, hx, hleft⟩
    · exact ⟨_, List.mem_cons_self, hleft⟩
    · exact ⟨x, List.mem_cons_of_mem _ hx, hleft⟩

variable {p : Plan} {floor : Nat} {s t : Standing}

/-- Nothing is started any more when it has been heard that the run is to stop. -/
theorem quiet (h : r.Line w c b xs a d) (hb : b = true) (hw : w.Conducted p floor true s t) :
    ∀ x ∈ xs, x.request.isStart = false := by
  induction h generalizing s with
  | done => simp
  | @ask q next c d b stage xs a hfound hrises rest ih =>
    cases hw with
    | ask hleads hfresh hrest =>
      -- the wish to stop is not taken back, so every later question has the same reply
      have hstopped := hrises hb
      have hadmits := r.admits_answer stage q
      have htells := Request.tells_true hadmits hstopped
      have hnext := hrest (r.answer stage q).2
      rw [htells] at hnext
      refine List.forall_mem_cons.2 ⟨?_, ih (hadmits.rises hstopped) hnext⟩
      rw [← Bool.not_eq_true]
      exact fun hstart => Bool.noConfusion (hfresh hstart)

/-- When it is read that the run is to stop, nothing is started any more. -/
theorem heeds {heard : Bool} (h : r.Line w c b xs a d) (hw : w.Conducted p floor heard s t) :
    xs.Pairwise fun x y => x.readsStop r = true → y.request.isStart = false := by
  induction h generalizing s heard with
  | done => exact .nil
  | @ask q next c d b stage xs a hfound hrises rest ih =>
    cases hw with
    | ask hleads hfresh hrest =>
      have hnext := hrest (r.answer stage q).2
      refine .cons (fun y hy hreads => ?_) (ih hnext)
      have htells : q.tells heard (r.answer stage q).2 = true := by
        cases q with
        | isStopped => exact hreads
        | _ => cases hreads
      rw [htells] at hnext
      exact rest.quiet (Turn.isStopped_of_readsStop hreads) hnext y hy

end Runner.Line

namespace Work

variable {es : List Exchange}

theorem way_pure {a b : α} (h : (pure a : Work α).Way es b) : es = [] ∧ b = a := by
  cases h
  exact ⟨rfl, rfl⟩

theorem way_request {q : Request} {reply : q.Reply} (h : (request q).Way es reply) :
    es = [⟨q, reply⟩] := by
  cases h with
  | ask h =>
    cases h
    rfl

/-- `way_bind` for pieces of work joined in the usual notation. -/
theorem way_seq {w : Work α} {k : α → Work β} {b : β} (h : (w >>= k).Way es b) :
    ∃ es₁ es₂ a, es = es₁ ++ es₂ ∧ w.Way es₁ a ∧ (k a).Way es₂ b :=
  way_bind.1 h

/-- A feature is not started if it is not selected, and if it is read at its start that the run is
to stop. -/
theorem way_runFeature {o : RunOptions} {p : PlannedFeature} {f : FeatureResult}
    (h : (o.runFeature p).Way es f) :
    (es = [] ∧ f = p.skipped) ∨ (p.isSelected = true ∧
      ((es = [⟨.isStopped, true⟩] ∧ f = p.skipped) ∨
        ∃ values rest, es = ⟨.isStopped, false⟩ :: ⟨.enter .feature values, ()⟩ :: rest)) := by
  unfold RunOptions.runFeature at h
  split at h
  · rename_i hselected
    obtain ⟨es₁, es₂, polled, rfl, h₁, h₂⟩ := way_seq h
    obtain rfl := way_request h₁
    cases polled with
    | true =>
      obtain ⟨rfl, rfl⟩ := way_pure h₂
      exact .inr ⟨hselected, .inl ⟨rfl, rfl⟩⟩
    | false =>
      obtain ⟨es₃, es₄, u, rfl, h₃, -⟩ := way_seq h₂
      obtain rfl := way_request h₃
      exact .inr ⟨hselected, .inr ⟨_, es₄, rfl⟩⟩
  · exact .inl (way_pure h)

theorem calls_slot {o : RunOptions} {point : HookPoint} {scope : HookScope}
    {status : Option Status} {call : SlotCall} (h : (o.slot point scope status).Way es call) :
    callsOf es = (o.called [⟨point, scope, status⟩]).map .hooks := by
  unfold RunOptions.slot at h
  unfold RunOptions.called
  split at h
  · rename_i hdry
    obtain ⟨rfl, -⟩ := way_pure h
    rw [if_pos hdry]
    rfl
  · rename_i hdry
    obtain ⟨es₁, es₂, reply, rfl, h₁, h₂⟩ := way_seq h
    obtain rfl := way_request h₁
    have hnone : callsOf es₂ = [] := by
      dsimp only at h₂
      split at h₂
      · split at h₂
        · obtain ⟨es₃, es₄, u, rfl, h₃, h₄⟩ := way_seq h₂
          obtain rfl := way_request h₃
          obtain ⟨rfl, -⟩ := way_pure h₄
          rfl
        · obtain ⟨rfl, -⟩ := way_pure h₂
          rfl
      · obtain ⟨rfl, -⟩ := way_pure h₂
        rfl
    rw [if_neg hdry, callsOf_append, hnone]
    rfl

theorem calls_openRun {o : RunOptions} {opening : Opening} (h : o.openRun.Way es opening) :
    callsOf es = (o.called [⟨.beforeAll, .suite, none⟩]).map .hooks := by
  obtain ⟨es₁, es₂, u, rfl, h₁, h₂⟩ := way_seq h
  obtain rfl := way_request h₁
  obtain ⟨es₃, es₄, call, rfl, h₃, h₄⟩ := way_seq h₂
  obtain ⟨rfl, -⟩ := way_pure h₄
  rw [List.append_nil, callsOf_append, calls_slot h₃]
  rfl

/-- The closing of a run calls the slot after everything, and its result holds the features. -/
theorem way_closeRun {o : RunOptions} {opening : Opening} {fs : List FeatureResult}
    {ending : Except FatalError RunResult} (h : (o.closeRun opening fs).Way es ending) :
    (∃ status, callsOf es = (o.called [⟨.afterAll, .suite, some status⟩]).map .hooks) ∧
      ∃ result : RunResult, result.features = fs ∧
        (ending = .ok result ∨ ∃ point detail, ending = .error ⟨point, detail, result⟩) := by
  obtain ⟨es₁, es₂, call, rfl, h₁, h₂⟩ := way_seq h
  obtain ⟨es₃, es₄, u, rfl, h₃, h₄⟩ := way_seq h₂
  obtain rfl := way_request h₃
  obtain ⟨es₅, es₆, cancelled, rfl, h₅, h₆⟩ := way_seq h₄
  obtain rfl := way_request h₅
  dsimp only at h₆
  have hend : es₆ = [] ∧ ∃ result : RunResult, result.features = fs ∧
      (ending = .ok result ∨ ∃ point detail, ending = .error ⟨point, detail, result⟩) := by
    split at h₆
    · obtain ⟨rfl, rfl⟩ := way_pure h₆
      exact ⟨rfl, _, rfl, .inr ⟨_, _, rfl⟩⟩
    · obtain ⟨rfl, rfl⟩ := way_pure h₆
      exact ⟨rfl, _, rfl, .inl rfl⟩
  obtain ⟨rfl, hresult⟩ := hend
  refine ⟨⟨.rollup (fs.map (·.status)), ?_⟩, hresult⟩
  rw [callsOf_append, calls_slot h₁]
  exact List.append_nil _

end Work

theorem PlannedFeature.scenarios_skipped (p : PlannedFeature) :
    ∀ s ∈ p.skipped.scenarios, s.status = .skipped ∧ s.attempts = 0 := by
  intro s hs
  obtain ⟨backgrounds, q, rfl⟩ := exists_of_mem_skipped hs
  exact ⟨rfl, rfl⟩

/-- In a dry run no user code is called. -/
theorem Nested.isStart_of_dry {o : RunOptions} {k : Company} {q : Stretch} {cues : List Cue}
    (h : Nested o k q cues) (hdry : o.dryRun = true) : ∀ cue ∈ cues, cue.isStart = true := by
  induction h with
  | bare => exact List.forall_mem_singleton.2 rfl
  | step calm hreal => exact absurd (hreal.symm.trans hdry) Bool.false_ne_true
  | @node n start p inside status level calm first crosses barred hinside ih =>
    have hbefore : p.before = [] := by
      have hentry := crosses.entry
      rw [RunOptions.entry, RunOptions.called, if_pos hdry] at hentry
      exact List.map_eq_nil_iff.1 (List.prefix_nil.1 hentry)
    have hafter : p.after = [] := by
      have hexit := crosses.exit
      rw [hbefore] at hexit
      exact List.map_eq_nil_iff.1 hexit
    refine List.forall_mem_cons.2 ⟨rfl, fun cue hcue => ?_⟩
    rcases Passage.mem_around.1 hcue with ⟨s, hs, -⟩ | hcue
    · rw [Passage.slots, hbefore, hafter] at hs
      cases hs
    · exact ih cue hcue
  | nil => exact fun cue hcue => absurd hcue List.not_mem_nil
  | cons hholds hfirst hrest ihfirst ihrest =>
    exact fun cue hcue => (List.mem_append.1 hcue).elim (ihfirst cue) (ihrest cue)

/-- A worker goes along the trail for its feature, with the result. -/
structure Runner.Safe (r : Runner W) (p : PlannedFeature) (xs : List (Turn W)) (f : FeatureResult) :
    Prop where
  /-- If the feature is started, what is called for it is nested. -/
  nested : (∃ x ∈ xs, x.request.isStart = true) →
    Nested r.options .others (.node (.feature p.feature)) (xs.filterMap (·.cue? r))
  /-- Every slot before something is closed by the one after it. -/
  closed : unclosed [] (xs.filterMap (·.cue? r)) = some []
  /-- Nothing is asked for a feature that is not selected. -/
  unselected : p.isSelected = false → xs = []
  /-- A feature that is not started is skipped, and nothing is called for it. -/
  idle : (∀ x ∈ xs, x.request.isStart = false) →
    (∀ x ∈ xs, x.request.isCall = false) ∧ f = p.skipped
  /-- Once it is read that the run is to stop, nothing is started. -/
  heeds : xs.Pairwise fun x y => x.readsStop r = true → y.request.isStart = false
  /-- If that is what is read first, nothing else is asked, and the feature is skipped with all its
  scenarios. -/
  stops : ∀ x ∈ xs.head?, x.readsStop r = true → xs = [x] ∧ f.status = .skipped ∧
    ∀ s ∈ f.scenarios, s.status = .skipped ∧ s.attempts = 0

namespace Runner

variable {r : Runner W} {p : PlannedFeature} {c d : Context} {b : Bool} {xs : List (Turn W)}
  {f : FeatureResult}

theorem safe_skipped (r : Runner W) (p : PlannedFeature) : r.Safe p [] p.skipped where
  nested := by simp
  closed := rfl
  unselected _ := rfl
  idle _ := ⟨by simp, rfl⟩
  heeds := .nil
  stops := by simp

namespace Line

/-- The account of the feature that a line goes along. -/
theorem exists_account (h : r.Line (r.options.runFeature p) c b xs f d) :
    ∃ a : FeatureAccount, a.Sound ⟨r.options, .others, true⟩ true ∧ a.planned = p ∧ a.result = f ∧
      a.cues = xs.filterMap (·.cue? r) := by
  obtain ⟨last, hcourse, -⟩ := h.course
  exact Work.course_runFeature (t := ⟨r.options, .others, true⟩) (fun _ => rfl) hcourse

/-- How a line begins: nothing is asked, or it is read that the run is to stop, or the feature is
started. -/
theorem cases_runFeature (h : r.Line (r.options.runFeature p) c b xs f d) :
    (xs = [] ∧ f = p.skipped) ∨ (p.isSelected = true ∧
      ((∃ x, xs = [x] ∧ x.request = .isStopped ∧ f = p.skipped) ∨
        ∃ x y rest, xs = x :: y :: rest ∧ x.readsStop r = false ∧ y.request.isStart = true)) := by
  rcases Work.way_runFeature h.way with ⟨hnil, hf⟩ | ⟨hselected, ⟨hone, hf⟩ | ⟨values, rest, hmany⟩⟩
  · exact .inl ⟨List.map_eq_nil_iff.1 hnil, hf⟩
  · obtain ⟨x, rfl, hx⟩ := List.map_eq_singleton_iff.1 hone
    exact .inr ⟨hselected, .inl ⟨x, rfl, congrArg (·.request) hx, hf⟩⟩
  · obtain ⟨x, xs', rfl, hx, hxs'⟩ := List.map_eq_cons_iff.1 hmany
    obtain ⟨y, ys, rfl, hy, -⟩ := List.map_eq_cons_iff.1 hxs'
    refine .inr ⟨hselected, .inr ⟨x, y, ys, rfl, ?_, ?_⟩⟩
    · exact congrArg (fun e : Exchange => e.request.tells false e.reply) hx
    · exact congrArg (fun e : Exchange => e.request.isStart) hy

/-- What is called for the feature is nested, if anything is started or called. -/
theorem nested_cues (h : r.Line (r.options.runFeature p) c b xs f d) :
    xs.filterMap (·.cue? r) = [] ∨
      Nested r.options .others (.node (.feature p.feature)) (xs.filterMap (·.cue? r)) := by
  obtain ⟨a, ha, rfl, -, hcues⟩ := h.exists_account
  rw [← hcues]
  exact ha.nested.imp_right And.right

/-- A line of the work on a feature hears that the run is to stop. -/
theorem heeds_runFeature (h : r.Line (r.options.runFeature p) c b xs f d) :
    xs.Pairwise fun x y => x.readsStop r = true → y.request.isStart = false := by
  -- the feature may be thought of as the only one of a plan
  let q : Plan := ⟨[p]⟩
  have hlinked : OpenNode.Linked q [.feature p, .suite q] :=
    (OpenNode.linked_suite q).cons (List.mem_singleton.2 rfl)
  have hworked : (r.options.runFeature p).Conducted q 0 false ⟨[.suite q], false⟩
      ⟨[.suite q], false⟩ := Work.conducted_runFeature (Nat.zero_le _) hlinked r.options
  exact h.heeds hworked

theorem safe (h : r.Line (r.options.runFeature p) c b xs f d) : r.Safe p xs f where
  nested := by
    rintro ⟨x, hx, hstart⟩
    refine h.nested_cues.resolve_left fun hnil => ?_
    exact x.cue?_ne_none r hstart (List.filterMap_eq_nil_iff.1 hnil x hx)
  closed := by
    rcases h.nested_cues with hnil | hnested
    · rw [hnil]
      rfl
    · exact hnested.unclosed []
  unselected hunselected := by
    rcases h.cases_runFeature with ⟨rfl, -⟩ | ⟨hselected, -⟩
    · rfl
    · exact absurd (hselected.symm.trans hunselected) Bool.noConfusion
  idle hidle := by
    rcases h.cases_runFeature with ⟨rfl, hf⟩ | ⟨-, ⟨x, rfl, hx, hf⟩ | ⟨x, y, rest, rfl, -, hstart⟩⟩
    · exact ⟨by simp, hf⟩
    · refine ⟨List.forall_mem_singleton.2 ?_, hf⟩
      rw [hx]
      rfl
    · have hy := hidle y (by simp)
      rw [hstart] at hy
      cases hy
  heeds := h.heeds_runFeature
  stops x hx hreads := by
    rcases h.cases_runFeature with ⟨rfl, -⟩ | ⟨-, ⟨y, rfl, -, hf⟩ | ⟨y, z, rest, rfl, hnot, -⟩⟩
    · cases hx
    · obtain rfl := Option.mem_some_iff.1 hx
      rw [hf]
      exact ⟨rfl, rfl, p.scenarios_skipped⟩
    · obtain rfl := Option.mem_some_iff.1 hx
      rw [hreads] at hnot
      cases hnot

end Line

/-- Among the calls for a feature is no slot of the run as a whole, and a dry run calls nothing. -/
theorem Safe.calls (h : r.Safe p xs f) {x : Turn W} (hx : x ∈ xs) :
    (∀ event, x.request = .hooks event → event.point.isAll = false) ∧
      (r.options.dryRun = true → x.request.isCall = false) := by
  by_cases hstart : ∃ y ∈ xs, y.request.isStart = true
  · have hnested := h.nested hstart
    have hcue : ∀ cue, x.cue? r = some cue → cue ∈ xs.filterMap (·.cue? r) := fun cue hcue =>
      List.mem_filterMap.2 ⟨x, hx, hcue⟩
    obtain ⟨s, q⟩ := x
    constructor
    · rintro event rfl
      exact hnested.isAll (by simp) _ (hcue _ rfl)
    · intro hdry
      cases q with
      | hooks event => cases hnested.isStart_of_dry hdry _ (hcue _ rfl)
      | call m step => cases hnested.isStart_of_dry hdry _ (hcue _ rfl)
      | _ => rfl
  · have hcall := (h.idle fun y hy => Bool.eq_false_iff.2 fun hy' => hstart ⟨y, hy, hy'⟩).1 x hx
    refine ⟨fun event hevent => ?_, fun _ => hcall⟩
    rw [hevent] at hcall
    cases hcall

end Runner

namespace Crew

variable {r : Runner W} {context : Context} {c : Crew W}

theorem length_act (r : Runner W) (context : Context) (c : Crew W) (i : Nat) :
    (c.act r context i).workers.length = c.workers.length := by
  rcases c.workers_act r context i with hsame | ⟨w, hset⟩
  · rw [hsame]
  · rw [hset, List.length_set]

theorem length_go (r : Runner W) (context : Context) (moves : List Move) (c : Crew W) :
    (go r context moves c).workers.length = c.workers.length := by
  induction moves generalizing c with
  | nil => rfl
  | cons m rest ih =>
    rw [go_cons, ih]
    cases m with
    | act i => exact length_act r context c i
    | cancel => rfl

/-- Whatever is asked is asked by a worker that is there. -/
theorem lt_of_mem_trail {moves : List Move} {x : Nat × Turn W} (hx : x ∈ c.trail r context moves) :
    x.1 < c.workers.length := by
  obtain ⟨before, after, -, hturn⟩ := exists_of_mem_trail hx
  obtain ⟨found, q, next, hi, -⟩ := exists_of_turn? hturn
  rw [← length_go r context before c]
  exact (List.getElem?_eq_some_iff.1 hi).1

end Crew

/-- What is called in a run, in order. -/
def Ended.calls (e : Ended W) : List Request := callsOf (e.stage.past.reverse.map Deed.exchange)

/-- Outside dry runs the slot before everything is called first, and the one after everything last,
and neither of them in between. A dry run calls nothing. -/
structure Enclosed (o : RunOptions) (calls : List Request) : Prop where
  real : o.dryRun = false → ∃ status between,
    calls = .hooks ⟨.beforeAll, .suite, none⟩ :: between ++
      [.hooks ⟨.afterAll, .suite, some status⟩] ∧
    ∀ event, .hooks event ∈ between → event.point.isAll = false
  dry : o.dryRun = true → calls = []

namespace Runner

variable {r : Runner W} {suite : Suite} {world : W} {cancelled : Bool} {moves : List Move}
  {fs : List FeatureResult}

theorem length_features (hfs : r.featuresAfter? suite world cancelled moves = some fs) :
    fs.length = (r.options.plan suite).features.length := by
  unfold featuresAfter? at hfs
  split at hfs
  · cases hfs
    exact List.length_map _
  · rename_i hfatal
    have hworkers := congrArg List.length (Crew.workers_eq_of_results? hfs)
    rw [crewAfter, Crew.length_go, crew_of_not_fatal hfatal, List.length_map] at hworkers
    exact hworkers.symm.trans (List.length_map _)

/-- Every worker does its work safely. -/
theorem safe_trailAfter (hfs : r.featuresAfter? suite world cancelled moves = some fs) {i : Nat}
    {p : PlannedFeature} (hp : (r.options.plan suite).features[i]? = some p) :
    ∃ f, fs[i]? = some f ∧ r.Safe p (r.trailAfter suite world cancelled moves i) f ∧
      f.label = p.label := by
  obtain ⟨f, hf, ⟨hnil, rfl⟩ | ⟨d, hline⟩⟩ := line_trailAfter hfs hp
  · rw [hnil]
    exact ⟨_, hf, r.safe_skipped p, p.label_skipped⟩
  · obtain ⟨a, ha, rfl, rfl, -⟩ := hline.exists_account
    exact ⟨_, hf, hline.safe, ha.label_eq⟩

/-- The results belong to the documents, one to each and in their order. -/
theorem map_label_features (hfs : r.featuresAfter? suite world cancelled moves = some fs) :
    fs.map (·.label) = suite.features.map (·.label) := by
  rw [← r.options.map_label_plan suite]
  refine List.ext_getElem? fun i => ?_
  rw [List.getElem?_map, List.getElem?_map]
  cases hp : (r.options.plan suite).features[i]? with
  | none =>
    rw [List.getElem?_eq_none_iff, ← length_features hfs, ← List.getElem?_eq_none_iff] at hp
    rw [hp]
    rfl
  | some p =>
    obtain ⟨f, hf, -, hlabel⟩ := safe_trailAfter hfs hp
    rw [hf]
    exact congrArg some hlabel

/-- Whatever is asked by some worker is asked by the worker of a feature. -/
theorem lt_of_mem_crewTrail {x : Nat × Turn W} (hx : x ∈ r.crewTrail suite world cancelled moves) :
    x.1 < (r.options.plan suite).features.length := by
  have hlt := Crew.lt_of_mem_trail hx
  by_cases hfatal : (r.opened world cancelled).2.fatal.isSome = true
  · rw [crew_of_fatal hfatal] at hlt
    exact absurd hlt (Nat.not_lt_zero _)
  · rw [crew_of_not_fatal hfatal] at hlt
    exact Nat.lt_of_lt_of_eq hlt (List.length_map _)

theorem mem_trailAfter {x : Nat × Turn W} (hx : x ∈ r.crewTrail suite world cancelled moves) :
    x.2 ∈ r.trailAfter suite world cancelled moves x.1 :=
  List.mem_map.2 ⟨x, List.mem_filter.2 ⟨hx, by simp⟩, rfl⟩

/-- What is asked by some worker is asked in the work on one of the features. -/
theorem exists_safe_of_mem (hfs : r.featuresAfter? suite world cancelled moves = some fs)
    {x : Nat × Turn W} (hx : x ∈ r.crewTrail suite world cancelled moves) :
    ∃ p xs f, r.Safe p xs f ∧ x.2 ∈ xs := by
  obtain ⟨f, -, hsafe, -⟩ :=
    safe_trailAfter hfs (List.getElem?_eq_getElem (lt_of_mem_crewTrail hx))
  exact ⟨_, _, f, hsafe, mem_trailAfter hx⟩

/-- What is on record in the end. -/
theorem past_finish (r : Runner W) (suite : Suite) (world : W) (cancelled : Bool)
    (moves : List Move) (fs : List FeatureResult) :
    (r.finish (r.opened world cancelled).2 (r.stageAfter suite world cancelled moves)
        fs).stage.past.reverse =
      (r.trail r.options.openRun (.start world cancelled)).map (·.deed r) ++
        (r.crewTrail suite world cancelled moves).map (fun x => x.2.deed r) ++
        (r.trail (r.options.closeRun (r.opened world cancelled).2 fs)
          (r.stageAfter suite world cancelled moves)).map (·.deed r) := by
  have hopening : (r.opened world cancelled).1.past.reverse =
      (r.trail r.options.openRun (.start world cancelled)).map (·.deed r) := by
    rw [opened, r.past_perform]
    simp [Stage.start]
  have hcrew : ((r.crewAfter suite world cancelled moves).past.map (·.2)).reverse =
      (r.crewTrail suite world cancelled moves).map fun x => x.2.deed r := by
    have hfresh : (r.crew suite world cancelled).past = [] := rfl
    rw [crewAfter, Crew.past_go, hfresh, List.append_nil, List.map_reverse, List.reverse_reverse,
      List.map_map]
    rfl
  have hstage : (r.stageAfter suite world cancelled moves).past =
      (r.crewAfter suite world cancelled moves).past.map (·.2) ++
        (r.opened world cancelled).1.past := rfl
  have hclosing := r.past_perform (r.options.closeRun (r.opened world cancelled).2 fs)
    (r.stageAfter suite world cancelled moves)
  rw [finish, hclosing, hstage, List.reverse_append, List.reverse_reverse, List.reverse_append,
    hopening, hcrew]

/-- The run has a report, which holds the results of the features. -/
theorem report?_finish (r : Runner W) (opening : Opening) (s : Stage W) (fs : List FeatureResult) :
    ∃ result, (r.finish opening s fs).report? = some result ∧ result.features = fs := by
  obtain ⟨-, result, hfs, hending⟩ := Work.way_closeRun
    (r.line_perform (r.options.closeRun opening fs) s).way
  refine ⟨result, ?_, hfs⟩
  rcases hending with hok | ⟨point, detail, herror⟩
  · simp only [finish, Ended.report?, hok]
    rfl
  · simp only [finish, Ended.report?, herror]
    rfl

/-- No worker calls a slot of the run as a whole, and in a dry run none calls anything. -/
theorem calls_crewTrail (hfs : r.featuresAfter? suite world cancelled moves = some fs) :
    let calls := callsOf ((r.crewTrail suite world cancelled moves).map fun x =>
      (x.2.deed r).exchange)
    (∀ event, .hooks event ∈ calls → event.point.isAll = false) ∧
      (r.options.dryRun = true → calls = []) := by
  have hmem : ∀ q ∈ callsOf ((r.crewTrail suite world cancelled moves).map fun x =>
      (x.2.deed r).exchange), q.isCall = true ∧
        ∃ x ∈ r.crewTrail suite world cancelled moves, x.2.request = q := by
    intro q hq
    obtain ⟨hq, hcall⟩ := List.mem_filter.1 hq
    obtain ⟨es, hes, rfl⟩ := List.mem_map.1 hq
    obtain ⟨x, hx, rfl⟩ := List.mem_map.1 hes
    exact ⟨hcall, x, hx, rfl⟩
  constructor
  · intro event hevent
    obtain ⟨-, x, hx, hrequest⟩ := hmem _ hevent
    obtain ⟨p, xs, f, hsafe, hxs⟩ := exists_safe_of_mem hfs hx
    exact (hsafe.calls hxs).1 event hrequest
  · intro hdry
    refine List.eq_nil_iff_forall_not_mem.2 fun q hq => ?_
    obtain ⟨hcall, x, hx, rfl⟩ := hmem q hq
    obtain ⟨p, xs, f, hsafe, hxs⟩ := exists_safe_of_mem hfs hx
    exact Bool.noConfusion (((hsafe.calls hxs).2 hdry).symm.trans hcall)

/-- Whatever the moves are, the slots of the run as a whole are called first and last. -/
theorem enclosed_finish (hfs : r.featuresAfter? suite world cancelled moves = some fs) :
    Enclosed r.options (r.finish (r.opened world cancelled).2
      (r.stageAfter suite world cancelled moves) fs).calls := by
  obtain ⟨hbetween, hnone⟩ := calls_crewTrail hfs
  have hopening := Work.calls_openRun
    (r.line_perform r.options.openRun (.start world cancelled)).way
  obtain ⟨⟨status, hclosing⟩, -⟩ := Work.way_closeRun
    (r.line_perform (r.options.closeRun (r.opened world cancelled).2 fs)
      (r.stageAfter suite world cancelled moves)).way
  have hcalls : (r.finish (r.opened world cancelled).2
      (r.stageAfter suite world cancelled moves) fs).calls =
        (r.options.called [⟨.beforeAll, .suite, none⟩]).map .hooks ++
          callsOf ((r.crewTrail suite world cancelled moves).map fun x =>
            (x.2.deed r).exchange) ++
          (r.options.called [⟨.afterAll, .suite, some status⟩]).map .hooks := by
    rw [Ended.calls, past_finish, List.map_append, List.map_append, callsOf_append, callsOf_append,
      List.map_map, List.map_map, List.map_map, ← hopening, ← hclosing]
    rfl
  rw [hcalls]
  constructor
  · intro hreal
    rw [RunOptions.called, RunOptions.called, if_neg (Bool.eq_false_iff.1 hreal),
      if_neg (Bool.eq_false_iff.1 hreal)]
    exact ⟨status, _, rfl, hbetween⟩
  · intro hdry
    rw [RunOptions.called, RunOptions.called, if_pos hdry, if_pos hdry, hnone hdry]
    rfl

end Runner

/-- A parallel run that has gone through the moves, with its report. -/
structure Runner.SafeRun (r : Runner W) (suite : Suite) (world : W) (cancelled : Bool)
    (moves : List Move) (e : Ended W) (result : RunResult) : Prop where
  report : e.report? = some result
  /-- There is one result for each document, in their order. -/
  features : result.features.map (·.label) = suite.features.map (·.label)
  /-- The workers do what they do safely, each on the feature at its place. -/
  workers : ∀ i p, (r.options.plan suite).features[i]? = some p →
    ∃ f, result.features[i]? = some f ∧ f.label = p.label ∧
      r.Safe p (r.trailAfter suite world cancelled moves i) f
  /-- After a fatal opening no worker asks for anything. -/
  fatal : (r.opened world cancelled).2.fatal.isSome = true →
    r.crewTrail suite world cancelled moves = []
  enclosed : Enclosed r.options e.calls
  /-- Nothing is done but by the opening, by the workers and by the closing. -/
  past : e.stage.past.reverse =
    (r.trail r.options.openRun (.start world cancelled)).map (·.deed r) ++
      (r.crewTrail suite world cancelled moves).map (fun x => x.2.deed r) ++
      (r.trail (r.options.closeRun (r.opened world cancelled).2 result.features)
        (r.stageAfter suite world cancelled moves)).map (·.deed r)

namespace Runner

/-- Whatever the moves are, a parallel run can be brought to an end, and if it has come to one, it
has been safe. -/
theorem parallel_safe (r : Runner W) (suite : Suite) (world : W) (cancelled : Bool)
    (hvalid : suite.violation? = none) (moves : List Move) :
    (∃ rest e, r.runThrough? suite world cancelled (moves ++ rest) = some e) ∧
      ∀ e, r.runThrough? suite world cancelled moves = some e →
        ∃ result, r.SafeRun suite world cancelled moves e result := by
  refine ⟨r.exists_runThrough suite world cancelled moves, fun e he => ?_⟩
  rw [runThrough?, hvalid] at he
  obtain ⟨fs, hfs, rfl⟩ := Option.map_eq_some_iff.1 he
  obtain ⟨result, hreport, hresult⟩ := r.report?_finish (r.opened world cancelled).2
    (r.stageAfter suite world cancelled moves) fs
  subst hresult
  exact ⟨result, {
    report := hreport
    features := map_label_features hfs
    workers := fun i p hp => by
      obtain ⟨f, hf, hsafe, hlabel⟩ := safe_trailAfter hfs hp
      exact ⟨f, hf, hlabel, hsafe⟩
    fatal := fun hfatal => by
      rw [crewTrail, crew_of_fatal hfatal]
      exact Crew.trail_of_workers_nil rfl moves
    enclosed := enclosed_finish hfs
    past := r.past_finish suite world cancelled moves result.features }⟩

/-- Two workers take their features up, and the run is stopped from outside after one of them has
finished its feature and before the other one begins. -/
theorem parallel_safe_cancelled :
    let hooks : Hooks Unit := ⟨[⟨.beforeFeature, fun _ => .done .ok⟩]⟩
    let r : Runner Unit := { ofHooks hooks with options := { RunOptions.default with jobs := 2 } }
    let feature (name : String) : Feature := { Feature.named name with
      children := [.definition (.scenario (.named "scenario"))] }
    let suite : Suite := ⟨[feature "first", feature "second"]⟩
    let moves : List Move :=
      [.act 0, .act 1] ++ List.replicate 20 (.act 0) ++ [.cancel, .act 1, .act 1]
    suite.violation? = none ∧ ∃ e result, r.runThrough? suite () false moves = some e ∧
      r.SafeRun suite () false moves e result := by
  intro hooks r feature suite moves
  have hvalid : suite.violation? = none := by decide
  have hends : (r.runThrough? suite () false moves).isSome = true := by decide
  obtain ⟨e, he⟩ := Option.isSome_iff_exists.1 hends
  obtain ⟨result, hsafe⟩ := (r.parallel_safe suite () false hvalid moves).2 e he
  exact ⟨hvalid, e, result, he, hsafe⟩

end Runner

end Rehearsal
