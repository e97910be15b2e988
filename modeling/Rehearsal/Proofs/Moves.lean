import Rehearsal.Proofs.Crew

/-!
# Moves

Beside the workers of a crew there is the world outside, which may ask at any moment that the run
be stopped. A parallel run goes through moves: a worker acts, or the wish to stop comes from
outside. Without such wishes the moves are a schedule (`Crew.go_act`), and after any moves the
workers can finish what they have begun (`Runner.exists_runThrough`).
-/

namespace Rehearsal

/-- What may happen next in a parallel run. -/
inductive Move where
  | act (i : Nat)
  | cancel
  deriving DecidableEq, Repr

namespace Crew

variable {r : Runner W} {context : Context} {c : Crew W}

def move (r : Runner W) (context : Context) (c : Crew W) : Move → Crew W
  | .act i => c.act r context i
  | .cancel => { c with cancelled := true }

def go (r : Runner W) (context : Context) (moves : List Move) (c : Crew W) : Crew W :=
  moves.foldl (move r context) c

@[simp] theorem go_nil (r : Runner W) (context : Context) (c : Crew W) :
    go r context [] c = c := rfl

theorem go_cons (m : Move) (rest : List Move) :
    go r context (m :: rest) c = go r context rest (c.move r context m) := rfl

theorem go_append (first second : List Move) :
    go r context (first ++ second) c = go r context second (go r context first c) :=
  List.foldl_append

theorem go_act (schedule : List Nat) :
    go r context (schedule.map .act) c = follow r context schedule c := by
  rw [go, List.foldl_map]
  rfl

/-- A crew without features has nothing to do. -/
theorem act_of_workers_nil (h : c.workers = []) (i : Nat) : c.act r context i = c := by
  rw [act, h]
  rfl

end Crew

namespace Runner

variable {r : Runner W} {suite : Suite} {world : W} {cancelled : Bool}

/-- The stage that the opening of a run leaves, and what the opening has come to. -/
def opened (r : Runner W) (world : W) (cancelled : Bool) : Stage W × Opening :=
  r.perform r.options.openRun (.start world cancelled)

/-- The crew that takes over from the opening. If that is fatal, it has no features to work on. -/
def crew (r : Runner W) (suite : Suite) (world : W) (cancelled : Bool) : Crew W :=
  let (s, opening) := r.opened world cancelled
  .start s (if opening.fatal.isSome then [] else (r.options.plan suite).features)

def crewAfter (r : Runner W) (suite : Suite) (world : W) (cancelled : Bool) (moves : List Move) :
    Crew W :=
  (r.crew suite world cancelled).go r (r.opened world cancelled).1.context moves

/-- The stage after the moves, on which the run is closed. -/
def stageAfter (r : Runner W) (suite : Suite) (world : W) (cancelled : Bool) (moves : List Move) :
    Stage W :=
  let (s, _) := r.opened world cancelled
  (r.crewAfter suite world cancelled moves).stage s.context s.past

/-- The results of the features after the moves, once there is one for each. -/
def featuresAfter? (r : Runner W) (suite : Suite) (world : W) (cancelled : Bool)
    (moves : List Move) : Option (List FeatureResult) :=
  if (r.opened world cancelled).2.fatal.isSome then
    some ((r.options.plan suite).features.map (·.skipped))
  else (r.crewAfter suite world cancelled moves).results?

/-- Runs a suite, unless it is malformed, through the moves; there is no end if they leave a
feature unfinished. -/
def runThrough? (r : Runner W) (suite : Suite) (world : W) (cancelled : Bool)
    (moves : List Move) : Option (Ended W) :=
  match suite.violation? with
  | some m => some ⟨.start world cancelled, .error (.malformed m)⟩
  | none => (r.featuresAfter? suite world cancelled moves).map fun fs =>
    r.finish (r.opened world cancelled).2 (r.stageAfter suite world cancelled moves) fs

theorem crew_of_fatal (h : (r.opened world cancelled).2.fatal.isSome = true) :
    r.crew suite world cancelled = .start (r.opened world cancelled).1 [] := by
  unfold crew
  dsimp only
  rw [if_pos h]

theorem crew_of_not_fatal (h : ¬ (r.opened world cancelled).2.fatal.isSome = true) :
    r.crew suite world cancelled =
      .start (r.opened world cancelled).1 (r.options.plan suite).features := by
  unfold crew
  dsimp only
  rw [if_neg h]

/-- After any moves the run can be brought to an end. -/
theorem exists_runThrough (r : Runner W) (suite : Suite) (world : W) (cancelled : Bool)
    (moves : List Move) :
    ∃ rest e, r.runThrough? suite world cancelled (moves ++ rest) = some e := by
  unfold runThrough? featuresAfter?
  cases suite.violation? with
  | some m => exact ⟨[], _, rfl⟩
  | none =>
    cases (r.opened world cancelled).2.fatal.isSome with
    | true => exact ⟨[], _, rfl⟩
    | false =>
      -- from where the moves have led, the workers alone can finish
      obtain ⟨schedule, fs, hfs⟩ := Crew.exists_finish r (r.opened world cancelled).1.context
        (r.crewAfter suite world cancelled moves)
      rw [crewAfter, ← Crew.go_act, ← Crew.go_append] at hfs
      exact ⟨schedule.map .act, _, congrArg (Option.map _) hfs⟩

end Runner

end Rehearsal
