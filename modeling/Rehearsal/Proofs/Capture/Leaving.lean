import Rehearsal.Proofs.Account.Moves
import Rehearsal.Proofs.Log
import Rehearsal.Proofs.Parallel.Solo

/-!
# What calls leave behind

User code leaves behind what stands in the two output streams when it ends, and the lines of the
events that it has logged, except for events of the runner itself. All of that is taken away after
every call, whatever the call comes to. So every call finds the streams empty
(`Runner.Goes.output_found`), and its cue carries what this one call has left
(`Turn.captured_cue`).
-/

namespace Rehearsal

namespace Script

/-- The events that are logged when the script is carried out. -/
def logged (own : String) : Script W α → Moment W → List LogEvent
  | done _, _ => []
  | world f next, m => (next (f m.world)).logged own { m with world := f m.world }
  | look next, m => (next m.context.view).logged own m
  | set key d next, m =>
    match m.context.set key d with
    | .ok c => (next (.ok ())).logged own { m with context := c }
    | .error e => (next (.error e)).logged own m
  | update key k f next, m =>
    (next (m.context.update key k f).2).logged own
      { m with context := (m.context.update key k f).1 }
  | output f next, m =>
    next.logged own { m with context := { m.context with output := f m.context.output } }
  | skipScenario reason next, m =>
    next.logged own
      { m with context :=
          { m.context with control := { m.context.control with skipReason := some reason } } }
  | continueAfterFailure on next, m =>
    next.logged own
      { m with context :=
          { m.context with control := { m.context.control with continueAfterFailure := on } } }
  | log e next, m => e :: next.logged own { m with log := m.log ++ e.collected own }
  | cancel next, m => next.logged own { m with cancelled := true }
  | exchange f next, m =>
    (next (f m.world m.context).1).logged own
      { m with world := (f m.world m.context).1, context := (f m.world m.context).2 }

/-- The log holds the lines of the events, in order. -/
theorem log_play (own : String) (s : Script W α) (m : Moment W) :
    (s.play own m).1.log = m.log ++ LogEvent.lines own (s.logged own m) := by
  induction s generalizing m with
  | done a => simp [play, logged]
  | world f next ih => exact ih _ _
  | look next ih => exact ih _ _
  | set key d next ih =>
    rw [play, logged]
    cases m.context.set key d with
    | ok c => exact ih _ _
    | error e => exact ih _ _
  | update key k f next ih => exact ih _ _
  | output f next ih => exact ih _
  | skipScenario reason next ih => exact ih _
  | continueAfterFailure on next ih => exact ih _
  | log e next ih => rw [play, logged, ih, LogEvent.lines_cons, String.append_assoc]
  | cancel next ih => exact ih _
  | exchange f next ih => exact ih _ _

end Script

/-- What the script leaves when it is carried out on the stage. -/
def Runner.leaves (r : Runner W) (s : Stage W) (script : Script W α) : Captured :=
  let m : Moment W := ⟨s.world, s.context, s.cancelled, ""⟩
  let left := (script.play r.ownTarget m).1.context.output
  ⟨left.stdout, left.stderr, LogEvent.lines r.ownTarget (script.logged r.ownTarget m)⟩

theorem Runner.captured_carryOut (r : Runner W) (s : Stage W) (script : Script W α) :
    (s.carryOut r.ownTarget script).2.2 = r.leaves s script := by
  simp [Stage.carryOut, leaves, script.log_play]

/-- What was captured of the call, if the cue is one. -/
def Cue.captured : Cue → Captured
  | slot s => s.reply.captured
  | call c => c.reply.captured
  | enter _ | find _ => .empty

namespace Turn

variable {r : Runner W} {x : Turn W}

/-- What the user code that is called has left behind when it ends. -/
def leaves (r : Runner W) (x : Turn W) : Captured :=
  match x.request with
  | .hooks event => r.leaves x.stage (r.hooks.call event)
  | .call m step => r.leaves x.stage (r.registry.call m step)
  | _ => .empty

theorem captured_cue {cue : Cue} (h : x.cue? r = some cue) : cue.captured = x.leaves r := by
  obtain ⟨s, q⟩ := x
  cases q with
  | hooks event =>
    cases h
    exact r.captured_carryOut s (r.hooks.call event)
  | call m step =>
    cases h
    exact r.captured_carryOut s (r.registry.call m step)
  | enter | find =>
    cases h
    rfl
  | leave | reset | control | isStopped | stop => cases h

end Turn

namespace Runner

variable {r : Runner W}

/-- The streams are left as empty as they were found. -/
theorem output_answer (r : Runner W) {s : Stage W} (h : s.context.output = .empty) (q : Request) :
    (r.answer s q).1.context.output = .empty := by
  cases q with
  | enter level values =>
    obtain ⟨l, -, hpush⟩ := Context.exists_ownAll level values
    exact (congrArg Context.output (hpush s.context)).trans h
  | leave =>
    obtain ⟨ls, hpop⟩ := s.context.exists_pop
    exact (congrArg Context.output hpop).trans h
  | hooks | call => rfl
  | reset | control | isStopped | stop | find => exact h

/-- Whoever has the context to itself finds the streams empty whenever it asks, and leaves them
so. -/
theorem Line.output_found {w : Work α} {c d : Context} {b : Bool} {xs : List (Turn W)} {a : α}
    (h : r.Line w c b xs a d) (hc : c.output = .empty) :
    (∀ x ∈ xs, x.stage.context.output = .empty) ∧ d.output = .empty := by
  induction h with
  | done => exact ⟨by simp, hc⟩
  | ask hfound hrises rest ih =>
    subst hfound
    obtain ⟨hxs, hd⟩ := ih (r.output_answer hc _)
    exact ⟨List.forall_mem_cons.2 ⟨hc, hxs⟩, hd⟩

/-- Whatever is asked in a run finds the streams empty. -/
theorem Goes.output_found {suite : Suite} {world : W} {cancelled : Bool} {xs : List (Turn W)}
    {e : Ended W} (h : r.Goes suite world cancelled xs e) :
    ∀ x ∈ xs, x.stage.context.output = .empty := by
  cases h with
  | inOrder hvalid => exact ((r.line_perform _ (.start world cancelled)).output_found rfl).1
  | @through moves fs hvalid hfs =>
    obtain ⟨hopening, hopened⟩ :=
      (r.line_perform r.options.openRun (.start world cancelled)).output_found rfl
    have hclosing := r.line_perform (r.options.closeRun (r.opened world cancelled).2 fs)
      (r.stageAfter suite world cancelled moves)
    intro x hx
    rcases List.mem_append.1 hx with hx | hx
    · rcases List.mem_append.1 hx with hx | hx
      · exact hopening x hx
      · obtain ⟨y, hy, rfl⟩ := List.mem_map.1 hx
        have hmem := mem_trailAfter hy
        obtain ⟨f, -, ⟨hnil, -⟩ | ⟨d, hline⟩⟩ :=
          line_trailAfter hfs (List.getElem?_eq_getElem (lt_of_mem_crewTrail hy))
        · rw [hnil] at hmem
          cases hmem
        · exact (hline.output_found rfl).1 _ hmem
    · exact (hclosing.output_found hopened).1 x hx

end Runner

end Rehearsal
