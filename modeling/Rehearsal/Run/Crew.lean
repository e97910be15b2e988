import Rehearsal.Run

/-!
# Crews

In a parallel run every feature has a worker. The features are taken up in order, as many at
once as there are jobs or one if there are none, and each worker has a copy of the context
for itself; the world of the user code and the two ways of stopping the run are common to
all. A worker acts by having one request answered, and a schedule says which worker acts
when.

What becomes of a feature whose worker crashes is left out. A panic in a hook or a step is only a
failure, so it takes one in the conversion of a parameter type, and conversions are total here.

`Runner.runBy?` runs a suite by a schedule, and `exists_schedule` says that
`Runner.runParallel` runs it by one of them.
-/

namespace Rehearsal

inductive Worker where
  | waiting (p : PlannedFeature)
  | busy (context : Context) (rest : Work FeatureResult)
  | finished (result : FeatureResult)

namespace Worker

def isWaiting : Worker → Bool
  | waiting _ => true
  | _ => false

def isBusy : Worker → Bool
  | busy _ _ => true
  | _ => false

def result? : Worker → Option FeatureResult
  | finished result => some result
  | _ => none

end Worker

/-- The workers of a run, in the order of the features, and what they share. The past says
which worker did what, the latest first. -/
structure Crew (W : Type) where
  world : W
  cancelled : Bool
  stopped : Bool
  workers : List Worker
  past : List (Nat × Deed)

namespace Crew

def start (s : Stage W) (features : List PlannedFeature) : Crew W :=
  ⟨s.world, s.cancelled, s.stopped, features.map .waiting, []⟩

def stage (c : Crew W) (context : Context) (earlier : List Deed) : Stage W :=
  ⟨c.world, context, c.cancelled, c.stopped, c.past.map (·.2) ++ earlier⟩

/-- May the worker with the index take its feature up? All features before have to be taken
up, and there has to be room for one more under way. -/
def mayStart (jobs : Nat) (c : Crew W) (i : Nat) : Bool :=
  !((c.workers.take i).any Worker.isWaiting) &&
    decide (c.workers.countP Worker.isBusy < max jobs 1)

/-- Lets the worker with the index act, if there is something that it may do. Its context is
at first a copy of the given one. -/
def act (r : Runner W) (context : Context) (c : Crew W) (i : Nat) : Crew W :=
  match c.workers[i]? with
  | some (.waiting p) =>
    if c.mayStart r.options.jobs i then
      { c with workers := c.workers.set i (.busy context.fork (r.options.runFeature p)) }
    else c
  | some (.busy found (.ask q next)) =>
    match r.answer (c.stage found []) q with
    | (t, reply) =>
      ⟨t.world, t.cancelled, t.stopped, c.workers.set i (.busy t.context (next reply)),
        (i, ⟨q, reply, found, t.isStopped⟩) :: c.past⟩
  | some (.busy _ (.done result)) => { c with workers := c.workers.set i (.finished result) }
  | _ => c

def follow (r : Runner W) (context : Context) (schedule : List Nat) (c : Crew W) : Crew W :=
  schedule.foldl (act r context) c

/-- The results, once every feature has one. -/
def results? (c : Crew W) : Option (List FeatureResult) := c.workers.mapM Worker.result?

theorem mapM_result?_finished (results : List FeatureResult) :
    (results.map Worker.finished).mapM Worker.result? = some results := by
  induction results with
  | nil => rfl
  | cons a rest ih => simp [Worker.result?, ih]

@[simp] theorem follow_nil (r : Runner W) (context : Context) (c : Crew W) :
    follow r context [] c = c := rfl

theorem follow_cons (r : Runner W) (context : Context) (i : Nat) (schedule : List Nat)
    (c : Crew W) :
    follow r context (i :: schedule) c = follow r context schedule (c.act r context i) := rfl

theorem follow_append (r : Runner W) (context : Context) (first second : List Nat)
    (c : Crew W) :
    follow r context (first ++ second) c = follow r context second (follow r context first c) :=
  List.foldl_append

end Crew

namespace Runner

/-- Runs a suite, unless it is malformed, by a schedule; there is no end if the schedule
leaves a feature unfinished. -/
def runBy? (r : Runner W) (suite : Suite) (world : W) (cancelled : Bool)
    (schedule : List Nat) : Option (Ended W) :=
  let start := Stage.start world cancelled
  match suite.violation? with
  | some m => some ⟨start, .error (.malformed m)⟩
  | none =>
    let plan := r.options.plan suite
    let (s, opening) := r.perform r.options.openRun start
    if opening.fatal.isSome then some (r.finish opening s (plan.features.map (·.skipped)))
    else
      let crew := Crew.follow r s.context schedule (.start s plan.features)
      crew.results?.map fun fs => r.finish opening (crew.stage s.context s.past) fs

/-- What was done before has no influence on the answer to a request. -/
theorem answer_past (r : Runner W) (s : Stage W) (past : List Deed) (q : Request) :
    r.answer { s with past := past } q =
      ({ (r.answer s q).1 with past := past }, (r.answer s q).2) := by
  cases q <;> rfl

end Runner

namespace Crew

/-- A worker that is left alone finishes its feature as it would on a stage of its own. -/
theorem exists_follow_busy (r : Runner W) (context : Context) (w : Work FeatureResult)
    (c : Crew W) (i : Nat) (found : Context) (earlier : List Deed)
    (h : c.workers[i]? = some (.busy found w)) :
    ∃ schedule,
      (follow r context schedule c).workers =
        c.workers.set i (.finished (r.perform w (c.stage found earlier)).2) ∧
      (follow r context schedule c).stage
          (r.perform w (c.stage found earlier)).1.context earlier =
        (r.perform w (c.stage found earlier)).1 := by
  induction w generalizing c found with
  | done result =>
    refine ⟨[i], ?_, ?_⟩ <;> simp [follow_cons, act, h, stage]
  | ask q next ih =>
    have hi : i < c.workers.length := (List.getElem?_eq_some_iff.1 h).1
    have hanswer := r.answer_past (c.stage found []) (c.past.map (·.2) ++ earlier) q
    have hact : c.act r context i =
        ⟨(r.answer (c.stage found []) q).1.world, (r.answer (c.stage found []) q).1.cancelled,
          (r.answer (c.stage found []) q).1.stopped,
          c.workers.set i (.busy (r.answer (c.stage found []) q).1.context
            (next (r.answer (c.stage found []) q).2)),
          (i, ⟨q, (r.answer (c.stage found []) q).2, found,
            (r.answer (c.stage found []) q).1.isStopped⟩) :: c.past⟩ := by
      simp [act, h]
    have hreply : r.reply (c.stage found earlier) q =
        ((c.act r context i).stage (r.answer (c.stage found []) q).1.context earlier,
          (r.answer (c.stage found []) q).2) := by
      have hstage : c.stage found earlier =
          { c.stage found [] with past := c.past.map (·.2) ++ earlier } := rfl
      rw [Runner.reply, hstage, hanswer, hact]
      rfl
    obtain ⟨schedule, hworkers, hstage⟩ :=
      ih (r.answer (c.stage found []) q).2 (c.act r context i)
        (r.answer (c.stage found []) q).1.context (by simp [hact, hi])
    refine ⟨i :: schedule, ?_, ?_⟩
    · rw [follow_cons, hworkers, Runner.perform, hreply]
      simp [hact]
    · rw [follow_cons, Runner.perform, hreply]
      exact hstage

/-- Workers that are left alone one after the other finish their features as they would on
copies of the context. -/
theorem exists_follow (r : Runner W) (context : Context) (ps : List PlannedFeature)
    (c : Crew W) (results : List FeatureResult) (earlier : List Deed) (found : Context)
    (h : c.workers = results.map .finished ++ ps.map .waiting) :
    ∃ schedule,
      (follow r context schedule c).workers =
        (results ++ (r.performApart context ps (c.stage found earlier)).2).map .finished ∧
      ∀ left, (follow r context schedule c).stage left earlier =
        { (r.performApart context ps (c.stage found earlier)).1 with context := left } := by
  induction ps generalizing c results found with
  | nil =>
    refine ⟨[], ?_, fun left => rfl⟩
    simpa [Runner.performApart] using h
  | cons p ps ih =>
    have hnone : ((results.map Worker.finished).any Worker.isWaiting) = false := by
      simp [Worker.isWaiting]
    have hbusy : c.workers.countP Worker.isBusy = 0 := by
      rw [h, List.countP_eq_zero]
      intro w hw
      rcases List.mem_append.1 hw with hw | hw
      · obtain ⟨_, _, rfl⟩ := List.mem_map.1 hw
        simp [Worker.isBusy]
      · obtain ⟨_, _, rfl⟩ := List.mem_map.1 hw
        simp [Worker.isBusy]
    have hmay : c.mayStart r.options.jobs results.length = true := by
      rw [mayStart, hbusy, h, Bool.and_eq_true, decide_eq_true_eq]
      exact ⟨by simp [Worker.isWaiting], by omega⟩
    have hat : c.workers[results.length]? = some (.waiting p) := by
      rw [h]
      simp
    have hact : c.act r context results.length =
        { c with workers :=
            c.workers.set results.length (.busy context.fork (r.options.runFeature p)) } := by
      simp [act, hat, hmay]
    have hlt : results.length < c.workers.length := (List.getElem?_eq_some_iff.1 hat).1
    obtain ⟨first, hworkers, hstage⟩ :=
      exists_follow_busy r context (r.options.runFeature p) (c.act r context results.length)
        results.length context.fork earlier (by simp [hact, hlt])
    have hsame : (c.act r context results.length).stage context.fork earlier =
        { c.stage found earlier with context := context.fork } := by
      rw [hact]
      rfl
    cases hp : r.perform (r.options.runFeature p)
      { c.stage found earlier with context := context.fork } with
    | mk s result =>
      rw [hsame, hp] at hworkers hstage
      obtain ⟨rest, hrest, hleft⟩ :=
        ih (follow r context first (c.act r context results.length)) (results ++ [result])
          s.context (by rw [hworkers, hact, h]; simp)
      rw [hstage] at hrest hleft
      refine ⟨results.length :: (first ++ rest), ?_, ?_⟩
      · rw [follow_cons, follow_append, hrest, Runner.performApart, hp]
        simp
      · intro left
        rw [follow_cons, follow_append, hleft, Runner.performApart, hp]

end Crew

/-- A parallel run is a run by some schedule. -/
theorem Runner.exists_schedule (r : Runner W) (suite : Suite) (world : W) (cancelled : Bool) :
    ∃ schedule, r.runBy? suite world cancelled schedule =
      some (r.runParallel suite world cancelled) := by
  simp only [runBy?, runParallel]
  cases suite.violation? with
  | some m => exact ⟨[], rfl⟩
  | none =>
    generalize r.perform r.options.openRun (Stage.start world cancelled) = opened
    obtain ⟨s, opening⟩ := opened
    cases hfatal : opening.fatal.isSome with
    | true => exact ⟨[], by simp⟩
    | false =>
      obtain ⟨schedule, hworkers, hleft⟩ :=
        Crew.exists_follow r s.context (r.options.plan suite).features
          (.start s (r.options.plan suite).features) [] s.past s.context (by simp [Crew.start])
      have hstart : (Crew.start s (r.options.plan suite).features).stage s.context s.past = s := rfl
      rw [hstart] at hworkers hleft
      rw [List.nil_append] at hworkers
      have hresults := Crew.mapM_result?_finished
        (r.performApart s.context (r.options.plan suite).features s).2
      rw [← hworkers] at hresults
      exact ⟨schedule, by simp [Crew.results?, hresults, hleft]⟩

end Rehearsal
