import Rehearsal.Proofs.Conduct
import Rehearsal.Proofs.Glance

/-!
# Threads of runs

A thread is what happens to one context, from the beginning of a run on: each turn finds the
context as the turn before has left it, and is made where the nodes of the plan are open that it
needs. A run in order is one thread. In a run through moves every worker goes on with a copy of the
context as the opening has left it, and the closing goes on with that context itself
(`Runner.Trails`), so the run has one thread for each worker, and one for what lies around them.

What is said of the context is shown for threads and holds for all of these
(`Runner.Trails.exists_thread`).
-/

namespace Rehearsal

/-- A turn with the nodes that are open. -/
structure PlacedTurn (W : Type) extends Turn W where
  standing : Standing

namespace PlacedTurn

def depth (x : PlacedTurn W) : Nat := x.standing.nodes.length

def found (x : PlacedTurn W) : Context := x.stage.context

end PlacedTurn

/-- The turns follow one another on one context, from one standing to the other. Where the suite
alone is open, the context may be replaced by a copy of it. -/
inductive Runner.Thread (r : Runner W) (p : Plan) :
    Standing → Context → List (PlacedTurn W) → Standing → Context → Prop
  | nil (s : Standing) (c : Context) : Thread r p s c [] s c
  | cons {x : PlacedTurn W} {s s' t : Standing} {c d : Context} {xs : List (PlacedTurn W)}
      (hstanding : x.standing = s) (hfound : x.found = c) (hleads : x.request.Leads p 0 s s')
      (rest : Thread r p s' (x.left r) xs t d) : Thread r p s c (x :: xs) t d
  | fork {s t : Standing} {c d : Context} {xs : List (PlacedTurn W)}
      (hsuite : s = ⟨[.suite p], false⟩) (rest : Thread r p s c.fork xs t d) : Thread r p s c xs t d

namespace Runner.Thread

variable {r : Runner W} {p : Plan} {s t u : Standing} {c d e : Context}
  {xs ys : List (PlacedTurn W)}

theorem append (hxs : r.Thread p s c xs t d) (hys : r.Thread p t d ys u e) :
    r.Thread p s c (xs ++ ys) u e := by
  induction hxs with
  | nil => exact hys
  | cons hstanding hfound hleads rest ih => exact .cons hstanding hfound hleads (ih hys)
  | fork hsuite rest ih => exact .fork hsuite (ih hys)

/-- A thread up to one of its turns, and from there on. -/
theorem split {pre post : List (PlacedTurn W)} {x : PlacedTurn W}
    (h : r.Thread p s c (pre ++ x :: post) t d) :
    r.Thread p s c pre x.standing x.found ∧
      ∃ s', x.request.Leads p 0 x.standing s' ∧ r.Thread p s' (x.left r) post t d := by
  -- a copy of the context may be taken on either side of the turn
  generalize hys : pre ++ x :: post = ys at h
  induction h generalizing pre with
  | nil => cases pre <;> cases hys
  | @cons y s s' t c d ys hstanding hfound hleads rest ih =>
    cases pre with
    | nil =>
      cases hys
      subst hstanding hfound
      exact ⟨.nil _ _, s', hleads, rest⟩
    | cons z pre =>
      cases hys
      obtain ⟨hpre, hpost⟩ := ih rfl
      exact ⟨.cons hstanding hfound hleads hpre, hpost⟩
  | fork hsuite rest ih =>
    obtain ⟨hpre, hpost⟩ := ih hys
    exact ⟨.fork hsuite hpre, hpost⟩

/-- Between two turns with nothing in between the standing is the same, and so is the context unless
the suite alone is open. -/
theorem eq_of_nil (h : r.Thread p s c [] t d) : t = s ∧ (s ≠ ⟨[.suite p], false⟩ → d = c) := by
  generalize hxs : ([] : List (PlacedTurn W)) = xs at h
  induction h with
  | nil => exact ⟨rfl, fun _ => rfl⟩
  | cons => cases hxs
  | fork hsuite rest ih => exact ⟨(ih hxs).1, fun hne => absurd hsuite hne⟩

/-- What every turn preserves holds at the end of the thread. It may depend on the changes in place
that were asked for so far. -/
theorem preserves {P : List Change → Standing → Context → Prop} (h : r.Thread p s c xs t d)
    (hturn : ∀ x ∈ xs, ∀ before s', x.request.Leads p 0 x.standing s' →
      P before x.standing x.found → P (before ++ x.changes r) s' (x.left r))
    (hfork : ∀ before c, P before ⟨[.suite p], false⟩ c → P before ⟨[.suite p], false⟩ c.fork)
    (before : List Change) (hs : P before s c) : P (before ++ xs.flatMap (·.changes r)) t d := by
  induction h generalizing before with
  | nil => simpa using hs
  | @cons x s s' t c d xs hstanding hfound hleads rest ih =>
    subst hstanding hfound
    obtain ⟨hx, hxs⟩ := List.forall_mem_cons.1 hturn
    rw [List.flatMap_cons, ← List.append_assoc]
    exact ih hxs _ (hx before s' hleads hs)
  | fork hsuite rest ih =>
    subst hsuite
    exact ih hturn before (hfork before _ hs)

theorem linked (h : r.Thread p s c xs t d) (hs : OpenNode.Linked p s.nodes) :
    OpenNode.Linked p t.nodes :=
  h.preserves (P := fun _ s _ => OpenNode.Linked p s.nodes)
    (fun _ _ _ _ hleads hlinked => hleads.linked hlinked) (fun _ _ hlinked => hlinked) [] hs

end Runner.Thread

/-- Work that is done as the runner does it makes up a thread, along any line. -/
theorem Runner.Line.thread {r : Runner W} {p : Plan} {w : Work α} {c d : Context} {b : Bool}
    {xs : List (Turn W)} {a : α} (h : r.Line w c b xs a d) {heard : Bool} {s t : Standing}
    (hw : w.Conducted p 0 heard s t) :
    ∃ ys : List (PlacedTurn W), ys.map (·.toTurn) = xs ∧ r.Thread p s c ys t d := by
  induction h generalizing heard s with
  | done a c b =>
    cases hw
    exact ⟨[], rfl, .nil _ _⟩
  | @ask q next c d b found xs a hfound hrises rest ih =>
    cases hw with
    | ask hleads hfresh hrest =>
      obtain ⟨ys, rfl, hthread⟩ := ih (hrest _)
      exact ⟨⟨⟨found, q⟩, s⟩ :: ys, rfl, .cons rfl hfound hleads hthread⟩

namespace Runner

variable {r : Runner W} {suite : Suite} {world : W} {cancelled : Bool}

/-- What is asked on one context from the beginning of a run on: in a run in order everything; in a
run through moves what is asked in the opening, and then by one of the workers or in the closing. -/
inductive Trails (r : Runner W) (suite : Suite) (world : W) (cancelled : Bool) :
    List (Turn W) → Prop
  | inOrder (hvalid : suite.violation? = none) :
      Trails r suite world cancelled
        (r.trail (r.options.runPlan (r.options.plan suite)) (.start world cancelled))
  | worker {moves : List Move} {fs : List FeatureResult} {i : Nat}
      (hvalid : suite.violation? = none)
      (hfs : r.featuresAfter? suite world cancelled moves = some fs)
      (hi : i < (r.options.plan suite).features.length) :
      Trails r suite world cancelled
        (r.trail r.options.openRun (.start world cancelled) ++
          r.trailAfter suite world cancelled moves i)
  | closing {moves : List Move} {fs : List FeatureResult} (hvalid : suite.violation? = none)
      (hfs : r.featuresAfter? suite world cancelled moves = some fs) :
      Trails r suite world cancelled
        (r.trail r.options.openRun (.start world cancelled) ++
          r.trail (r.options.closeRun (r.opened world cancelled).2 fs)
            (r.stageAfter suite world cancelled moves))

/-- The opening of a run, and what goes on with its context. -/
theorem exists_thread_opening (r : Runner W) (world : W) (cancelled : Bool) (p : Plan) :
    ∃ ys : List (PlacedTurn W),
      ys.map (·.toTurn) = r.trail r.options.openRun (.start world cancelled) ∧
      r.Thread p ⟨[], false⟩ .fresh ys ⟨[.suite p], false⟩ (r.opened world cancelled).1.context :=
  (r.line_perform r.options.openRun (.start world cancelled)).thread
    (Work.conducted_openRun r.options p)

/-- The closing of a run. -/
theorem exists_thread_closing (r : Runner W) (p : Plan) (opening : Opening)
    (fs : List FeatureResult) (s : Stage W) :
    ∃ (ys : List (PlacedTurn W)) (d : Context),
      ys.map (·.toTurn) = r.trail (r.options.closeRun opening fs) s ∧
      r.Thread p ⟨[.suite p], false⟩ s.context ys ⟨[], false⟩ d := by
  have hwork : (r.options.closeRun opening fs).Conducted p 0 false ⟨[.suite p], false⟩
      ⟨[], false⟩ := Work.conducted_closeRun r.options p opening fs
  obtain ⟨ys, hys, hthread⟩ := (r.line_perform (r.options.closeRun opening fs) s).thread hwork
  exact ⟨ys, _, hys, hthread⟩

/-- The work on a feature of the plan, done by a worker. -/
theorem exists_thread_worker {p : Plan} {q : PlannedFeature} (hq : q ∈ p.features) {c d : Context}
    {b : Bool} {xs : List (Turn W)} {f : FeatureResult}
    (h : r.Line (r.options.runFeature q) c.fork b xs f d) :
    ∃ ys : List (PlacedTurn W), ys.map (·.toTurn) = xs ∧
      r.Thread p ⟨[.suite p], false⟩ c ys ⟨[.suite p], false⟩ d := by
  have hlinked : OpenNode.Linked p [.feature q, .suite p] := (OpenNode.linked_suite p).cons hq
  have hwork : (r.options.runFeature q).Conducted p 0 false ⟨[.suite p], false⟩
      ⟨[.suite p], false⟩ := Work.conducted_runFeature (Nat.zero_le 1) hlinked r.options
  obtain ⟨ys, hys, hthread⟩ := h.thread hwork
  exact ⟨ys, hys, .fork rfl hthread⟩

/-- Whatever is asked on one context is a thread of the run. In the end all nodes are closed, except
that a worker leaves the suite open. -/
theorem Trails.exists_thread {xs : List (Turn W)} (h : r.Trails suite world cancelled xs) :
    ∃ (ys : List (PlacedTurn W)) (t : Standing) (d : Context), ys.map (·.toTurn) = xs ∧
      r.Thread (r.options.plan suite) ⟨[], false⟩ .fresh ys t d ∧ t.nodes.length ≤ 1 := by
  let p := r.options.plan suite
  cases h with
  | inOrder hvalid =>
    have hline := r.line_perform (r.options.runPlan p) (.start world cancelled)
    obtain ⟨ys, hys, hthread⟩ := hline.thread (Work.conducted_runPlan r.options p)
    exact ⟨ys, _, _, hys, hthread, Nat.zero_le 1⟩
  | @worker moves fs i hvalid hfs hi =>
    obtain ⟨ys, hys, hopening⟩ := r.exists_thread_opening world cancelled p
    obtain ⟨f, -, hline⟩ := line_trailAfter hfs (List.getElem?_eq_getElem hi)
    rcases hline with ⟨hnil, -⟩ | ⟨d, hline⟩
    · exact ⟨ys, _, _, by rw [hys, hnil, List.append_nil], hopening, Nat.le_refl 1⟩
    · obtain ⟨zs, hzs, hworker⟩ := exists_thread_worker (List.getElem_mem hi) hline
      refine ⟨ys ++ zs, _, d, ?_, hopening.append hworker, Nat.le_refl 1⟩
      rw [List.map_append, hys, hzs]
  | @closing moves fs hvalid hfs =>
    obtain ⟨ys, hys, hopening⟩ := r.exists_thread_opening world cancelled p
    obtain ⟨zs, d, hzs, hclosing⟩ := r.exists_thread_closing p (r.opened world cancelled).2 fs
      (r.stageAfter suite world cancelled moves)
    refine ⟨ys ++ zs, _, d, ?_, hopening.append hclosing, Nat.zero_le 1⟩
    rw [List.map_append, hys, hzs]

end Runner

end Rehearsal
