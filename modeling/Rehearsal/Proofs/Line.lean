import Rehearsal.Proofs.Moves

/-!
# Lines of work

A trail lists what was asked in the course of some work, each request with the stage that it has
found. `Runner.Line` says that a trail is one along which the work may go if other work is done
beside it: between two requests everything may change but the context, which the work has for
itself, and a wish to stop, which is not taken back.

Work that a runner does on a stage goes along such a line (`Runner.line_perform`), and in a crew so
does every worker, whatever the moves are (`Crew.line_go`). What holds along all lines holds for
both.
-/

namespace Rehearsal

/-- A request with the stage that it finds. -/
structure Turn (W : Type) where
  stage : Stage W
  request : Request

namespace Turn

/-- The context after the request was answered. -/
def left (r : Runner W) (x : Turn W) : Context := (r.answer x.stage x.request).1.context

/-- What is put on record when the request is answered. -/
def deed (r : Runner W) (x : Turn W) : Deed :=
  ⟨x.request, (r.answer x.stage x.request).2, x.stage.context,
    (r.answer x.stage x.request).1.isStopped⟩

end Turn

namespace Runner

/-- What is asked when the work is done on the stage. -/
def trail (r : Runner W) : Work α → Stage W → List (Turn W)
  | .done _, _ => []
  | .ask q next, s => ⟨s, q⟩ :: trail r (next (r.reply s q).2) (r.reply s q).1

/-- The work may be done along the trail: it finds a context, and leaves another one with its
result. The run is to stop when it begins if `b` is true. -/
inductive Line (r : Runner W) : Work α → Context → Bool → List (Turn W) → α → Context → Prop
  | done (a : α) (c : Context) (b : Bool) : Line r (.done a) c b [] a c
  | ask {q : Request} {next : q.Reply → Work α} {c d : Context} {b : Bool} {s : Stage W}
      {xs : List (Turn W)} {a : α} (hfound : s.context = c) (hrises : b = true → s.isStopped = true)
      (rest : Line r (next (r.answer s q).2) (r.answer s q).1.context
        (r.answer s q).1.isStopped xs a d) :
      Line r (.ask q next) c b (⟨s, q⟩ :: xs) a d

variable {r : Runner W}

theorem line_perform (r : Runner W) (w : Work α) (s : Stage W) :
    r.Line w s.context s.isStopped (r.trail w s) (r.perform w s).2 (r.perform w s).1.context := by
  induction w generalizing s with
  | done a => exact .done a s.context s.isStopped
  | ask q next ih => exact .ask rfl id (ih (r.reply s q).2 (r.reply s q).1)

/-- The trail is what the stage has on record. -/
theorem past_perform (r : Runner W) (w : Work α) (s : Stage W) :
    (r.perform w s).1.past = ((r.trail w s).map (Turn.deed r)).reverse ++ s.past := by
  induction w generalizing s with
  | done a => rfl
  | ask q next ih =>
    rw [perform, ih, trail, List.map_cons, List.reverse_cons, List.append_assoc]
    rfl

namespace Line

variable {w : Work α} {c d : Context} {b : Bool} {xs : List (Turn W)} {a : α}

/-- A line is one way through the work. -/
theorem way (h : r.Line w c b xs a d) : w.Way (xs.map fun x => (x.deed r).exchange) a := by
  induction h with
  | done a c b => exact .done a
  | ask hfound hrises rest ih => exact .ask ih

/-- The run need not be to stop when the work begins. -/
theorem mono {b' : Bool} (h : r.Line w c b' xs a d) (hb : b = true → b' = true) :
    r.Line w c b xs a d := by
  cases h with
  | done => exact .done a c b
  | ask hfound hrises rest => exact .ask hfound (fun h => hrises (hb h)) rest

theorem of_pure {a' : α} (h : r.Line (pure a') c b xs a d) : xs = [] ∧ a = a' ∧ d = c := by
  cases h
  exact ⟨rfl, rfl, rfl⟩

theorem of_request {q : Request} {reply : q.Reply} (h : r.Line (.request q) c b xs reply d) :
    ∃ s : Stage W, xs = [⟨s, q⟩] ∧ s.context = c ∧ reply = (r.answer s q).2 ∧
      d = (r.answer s q).1.context := by
  cases h with
  | ask hfound hrises rest =>
    cases rest
    exact ⟨_, rfl, hfound, rfl, rfl⟩

/-- A line of one piece of work after another is one of the first continued by one of the second. -/
theorem of_seq {k : α → Work β} {result : β} (h : r.Line (w >>= k) c b xs result d) :
    ∃ first a e second, xs = first ++ second ∧ r.Line w c b first a e ∧
      r.Line (k a) e false second result d := by
  induction w generalizing c b xs with
  | done a => exact ⟨[], a, c, xs, rfl, .done a c b, h.mono Bool.noConfusion⟩
  | ask q next ih =>
    cases h with
    | ask hfound hrises rest =>
      obtain ⟨first, a, e, second, rfl, hfirst, hsecond⟩ := ih _ rest
      exact ⟨_ :: first, a, e, second, rfl, .ask hfound hrises hfirst, hsecond⟩

theorem eq_of_nil (h : r.Line w c b [] a d) : d = c := by
  cases h
  rfl

/-- The context in the end is the one that the last turn has left. -/
theorem eq_left {x : Turn W} (h : r.Line w c b xs a d) (hx : xs.getLast? = some x) :
    d = x.left r := by
  induction h with
  | done => cases hx
  | @ask q next c d b s xs a hfound hrises rest ih =>
    cases xs with
    | nil =>
      obtain rfl := Option.some.inj hx
      exact rest.eq_of_nil
    | cons y ys => exact ih (by rwa [List.getLast?_cons_cons] at hx)

end Line

end Runner

/-- What the worker has still to do goes along the trail and comes to the result. -/
inductive Worker.Does (r : Runner W) (context : Context) (b : Bool) :
    Worker → List (Turn W) → FeatureResult → Prop
  | waiting {p : PlannedFeature} {xs : List (Turn W)} {f : FeatureResult} {d : Context}
      (h : r.Line (r.options.runFeature p) context.fork b xs f d) :
      Does r context b (.waiting p) xs f
  | busy {found d : Context} {w : Work FeatureResult} {xs : List (Turn W)} {f : FeatureResult}
      (h : r.Line w found b xs f d) : Does r context b (.busy found w) xs f
  | finished (f : FeatureResult) : Does r context b (.finished f) [] f

namespace Worker.Does

variable {r : Runner W} {context : Context} {b : Bool} {xs : List (Turn W)} {f : FeatureResult}

theorem mono {b' : Bool} {w : Worker} (h : w.Does r context b' xs f) (hb : b = true → b' = true) :
    w.Does r context b xs f := by
  cases h with
  | waiting h => exact .waiting (h.mono hb)
  | busy h => exact .busy (h.mono hb)
  | finished => exact .finished f

end Worker.Does

namespace Crew

variable {r : Runner W} {context : Context} {c : Crew W} {moves : List Move}

/-- What the worker with the index asks when it acts, unless it takes its feature up or puts its
result down. -/
def turn? (c : Crew W) (i : Nat) : Option (Turn W) :=
  match c.workers[i]? with
  | some (.busy found (.ask q _)) => some ⟨c.stage found [], q⟩
  | _ => none

/-- What the workers ask in the course of the moves. -/
def trail (r : Runner W) (context : Context) : List Move → Crew W → List (Nat × Turn W)
  | [], _ => []
  | .act i :: rest, c =>
    (c.turn? i).toList.map (fun x => (i, x)) ++ trail r context rest (c.act r context i)
  | .cancel :: rest, c => trail r context rest { c with cancelled := true }

def trailAt (r : Runner W) (context : Context) (moves : List Move) (c : Crew W) (i : Nat) :
    List (Turn W) :=
  (group Prod.fst (c.trail r context moves) i).map (·.2)

theorem trailAt_act (j : Nat) (rest : List Move) (i : Nat) :
    c.trailAt r context (.act j :: rest) i =
      (if j = i then (c.turn? j).toList else []) ++
        (c.act r context j).trailAt r context rest i := by
  rw [trailAt, trail, group_append, List.map_append]
  refine congrArg (· ++ _) ?_
  by_cases hji : j = i
  · cases c.turn? j <;> simp [group, hji]
  · cases c.turn? j <;> simp [group, hji]

theorem exists_of_turn? {i : Nat} {x : Turn W} (h : c.turn? i = some x) :
    ∃ found q next, c.workers[i]? = some (.busy found (.ask q next)) ∧
      x = ⟨c.stage found [], q⟩ := by
  unfold turn? at h
  split at h
  · rename_i found q next hbusy
    exact ⟨found, q, next, hbusy, (Option.some.inj h).symm⟩
  · cases h

theorem act_of_busy {i : Nat} {found : Context} {q : Request} {next : q.Reply → Work FeatureResult}
    (h : c.workers[i]? = some (.busy found (.ask q next))) :
    c.act r context i = c.answered r i found q next := by
  unfold act
  rw [h]
  rfl

/-- What is in the trail was asked by the worker with its index in one of the moves. -/
theorem exists_of_mem_trail {x : Nat × Turn W} (hx : x ∈ c.trail r context moves) :
    ∃ before after, moves = before ++ .act x.1 :: after ∧
      (go r context before c).turn? x.1 = some x.2 := by
  induction moves generalizing c with
  | nil => cases hx
  | cons m rest ih =>
    cases m with
    | cancel =>
      obtain ⟨before, after, rfl, hturn⟩ := ih (c := { c with cancelled := true }) hx
      exact ⟨.cancel :: before, after, rfl, hturn⟩
    | act i =>
      rcases List.mem_append.1 hx with hx | hx
      · obtain ⟨y, hy, rfl⟩ := List.mem_map.1 hx
        exact ⟨[], rest, rfl, Option.mem_toList.1 hy⟩
      · obtain ⟨before, after, rfl, hturn⟩ := ih hx
        exact ⟨.act i :: before, after, rfl, hturn⟩

/-- A worker that asks for nothing changes only what it does itself. -/
theorem act_of_turn?_none (r : Runner W) (context : Context) {i : Nat} (h : c.turn? i = none) :
    ∃ workers, c.act r context i = { c with workers := workers } := by
  rcases c.act_cases r context i with ⟨p, -, -, hact⟩ | ⟨found, q, next, hi, -⟩ |
    ⟨found, result, -, hact⟩ | hact
  · exact ⟨_, hact⟩
  · rw [turn?, hi] at h
    cases h
  · exact ⟨_, hact⟩
  · exact ⟨_, hact⟩

/-- The trails are what the crew has on record. -/
theorem past_go (r : Runner W) (context : Context) (moves : List Move) (c : Crew W) :
    (go r context moves c).past =
      ((c.trail r context moves).map fun x => (x.1, x.2.deed r)).reverse ++ c.past := by
  induction moves generalizing c with
  | nil => rfl
  | cons m rest ih =>
    cases m with
    | cancel => exact ih { c with cancelled := true }
    | act i =>
      have hact : (c.act r context i).past =
          ((c.turn? i).toList.map fun x => (i, x.deed r)) ++ c.past := by
        cases hturn : c.turn? i with
        | some x =>
          obtain ⟨found, q, next, hi, rfl⟩ := exists_of_turn? hturn
          rw [act_of_busy hi]
          rfl
        | none =>
          obtain ⟨workers, hact⟩ := act_of_turn?_none r context hturn
          rw [hact]
          rfl
      rw [go_cons, move, ih, hact, trail, List.map_append, List.reverse_append,
        List.append_assoc, List.map_map]
      cases c.turn? i <;> rfl

/-- The wish to stop is not taken back. -/
theorem isStopped_act (h : c.isStopped = true) (i : Nat) :
    (c.act r context i).isStopped = true := by
  cases hturn : c.turn? i with
  | some x =>
    obtain ⟨found, q, next, hi, rfl⟩ := exists_of_turn? hturn
    rw [act_of_busy hi]
    exact (r.admits_answer (c.stage found []) q).rises h
  | none =>
    obtain ⟨workers, hact⟩ := act_of_turn?_none r context hturn
    rw [hact]
    exact h

/-- A worker that acts does what comes first, and has the rest still to do. -/
theorem does_act (r : Runner W) (context : Context) {i : Nat} {w : Worker}
    (hw : c.workers[i]? = some w) :
    ∃ w', (c.act r context i).workers[i]? = some w' ∧ ∀ xs f,
      w'.Does r context (c.act r context i).isStopped xs f →
        w.Does r context c.isStopped ((c.turn? i).toList ++ xs) f := by
  have hi : i < c.workers.length := (List.getElem?_eq_some_iff.1 hw).1
  cases hturn : c.turn? i with
  | some x =>
    obtain ⟨found, q, next, hbusy, rfl⟩ := exists_of_turn? hturn
    obtain rfl := Option.some.inj (hw.symm.trans hbusy)
    rw [act_of_busy hbusy]
    refine ⟨_, List.getElem?_set_self hi, fun xs f h => ?_⟩
    cases h with
    | busy h => exact .busy (.ask rfl id h)
  | none =>
    rcases c.act_cases r context i with ⟨p, hp, -, hact⟩ | ⟨found, q, next, hbusy, -⟩ |
      ⟨found, result, hbusy, hact⟩ | hact
    · obtain rfl := Option.some.inj (hw.symm.trans hp)
      rw [hact]
      refine ⟨_, List.getElem?_set_self hi, fun xs f h => ?_⟩
      cases h with
      | busy h => exact .waiting h
    · rw [turn?, hbusy] at hturn
      cases hturn
    · obtain rfl := Option.some.inj (hw.symm.trans hbusy)
      rw [hact]
      refine ⟨_, List.getElem?_set_self hi, fun xs f h => ?_⟩
      cases h
      exact .busy (.done result found _)
    · rw [hact]
      exact ⟨w, hw, fun xs f h => h⟩

/-- Only the worker that acts changes. -/
theorem workers_act (r : Runner W) (context : Context) (c : Crew W) (i : Nat) :
    (c.act r context i).workers = c.workers ∨
      ∃ w, (c.act r context i).workers = c.workers.set i w := by
  rcases c.act_cases r context i with ⟨p, -, -, hact⟩ | ⟨found, q, next, -, hact⟩ |
    ⟨found, result, -, hact⟩ | hact
  · exact .inr ⟨_, congrArg (·.workers) hact⟩
  · exact .inr ⟨_, congrArg (·.workers) hact⟩
  · exact .inr ⟨_, congrArg (·.workers) hact⟩
  · exact .inl (congrArg (·.workers) hact)

theorem workers_act_ne {i j : Nat} (hij : j ≠ i) :
    (c.act r context j).workers[i]? = c.workers[i]? := by
  rcases c.workers_act r context j with hsame | ⟨w, hset⟩
  · rw [hsame]
  · rw [hset]
    exact List.getElem?_set_ne hij

/-- In a crew that finishes all features, every worker goes along a line of its work. -/
theorem does_go {fs : List FeatureResult} (hfs : (go r context moves c).results? = some fs)
    {i : Nat} {w : Worker} (hw : c.workers[i]? = some w) :
    ∃ f, fs[i]? = some f ∧ w.Does r context c.isStopped (c.trailAt r context moves i) f := by
  -- a move of the worker itself goes on along its line; all others at most let the run be stopped,
  -- which a line allows between two requests
  induction moves generalizing c w with
  | nil =>
    rw [go_nil] at hfs
    rw [workers_eq_of_results? hfs, List.getElem?_map] at hw
    obtain ⟨f, hf, rfl⟩ := Option.map_eq_some_iff.1 hw
    exact ⟨f, hf, .finished f⟩
  | cons m rest ih =>
    rw [go_cons] at hfs
    cases m with
    | cancel =>
      obtain ⟨f, hf, h⟩ := ih hfs (w := w) hw
      exact ⟨f, hf, h.mono fun _ => rfl⟩
    | act j =>
      rw [trailAt_act]
      by_cases hji : j = i
      · subst hji
        obtain ⟨w', hw', hdoes⟩ := does_act r context hw
        obtain ⟨f, hf, h⟩ := ih hfs hw'
        rw [if_pos rfl]
        exact ⟨f, hf, hdoes _ f h⟩
      · obtain ⟨f, hf, h⟩ := ih hfs ((workers_act_ne hji).trans hw)
        rw [if_neg hji]
        exact ⟨f, hf, h.mono fun hstop => isStopped_act hstop j⟩

/-- The crew that takes over from a stage and finishes all features goes along a line of the work
on every one of them. -/
theorem line_go {s : Stage W} {ps : List PlannedFeature} {fs : List FeatureResult}
    (hfs : (go r context moves (start s ps)).results? = some fs) {i : Nat} {p : PlannedFeature}
    (hp : ps[i]? = some p) :
    ∃ f d, fs[i]? = some f ∧ r.Line (r.options.runFeature p) context.fork s.isStopped
      ((start s ps).trailAt r context moves i) f d := by
  have hw : (start s ps).workers[i]? = some (.waiting p) := by
    rw [start, List.getElem?_map, hp]
    rfl
  obtain ⟨f, hf, hdoes⟩ := does_go hfs hw
  cases hdoes with
  | waiting h => exact ⟨f, _, hf, h⟩

/-- A crew without features asks for nothing. -/
theorem trail_of_workers_nil (h : c.workers = []) (moves : List Move) :
    c.trail r context moves = [] := by
  induction moves generalizing c with
  | nil => rfl
  | cons m rest ih =>
    cases m with
    | cancel => exact ih (c := { c with cancelled := true }) h
    | act i =>
      have hturn : c.turn? i = none := by
        rw [turn?, h]
        rfl
      rw [trail, hturn, act_of_workers_nil h, ih h]
      rfl

end Crew

namespace Runner

variable {r : Runner W} {suite : Suite} {world : W} {cancelled : Bool} {moves : List Move}

/-- What the workers ask when a run goes through the moves. -/
def crewTrail (r : Runner W) (suite : Suite) (world : W) (cancelled : Bool) (moves : List Move) :
    List (Nat × Turn W) :=
  (r.crew suite world cancelled).trail r (r.opened world cancelled).1.context moves

def trailAfter (r : Runner W) (suite : Suite) (world : W) (cancelled : Bool) (moves : List Move)
    (i : Nat) : List (Turn W) :=
  (group Prod.fst (r.crewTrail suite world cancelled moves) i).map (·.2)

/-- Along the moves of a run, every worker goes along a line of its work, unless the opening was
fatal. -/
theorem line_trailAfter {fs : List FeatureResult}
    (hfs : r.featuresAfter? suite world cancelled moves = some fs) {i : Nat} {p : PlannedFeature}
    (hp : (r.options.plan suite).features[i]? = some p) :
    let s := (r.opened world cancelled).1
    let xs := r.trailAfter suite world cancelled moves i
    ∃ f, fs[i]? = some f ∧ ((xs = [] ∧ f = p.skipped) ∨
      ∃ d, r.Line (r.options.runFeature p) s.context.fork s.isStopped xs f d) := by
  unfold featuresAfter? at hfs
  unfold trailAfter crewTrail
  split at hfs
  · rename_i hfatal
    cases hfs
    refine ⟨p.skipped, by rw [List.getElem?_map, hp]; rfl, .inl ⟨?_, rfl⟩⟩
    rw [crew_of_fatal hfatal, Crew.trail_of_workers_nil rfl]
    rfl
  · rename_i hfatal
    rw [crewAfter, crew_of_not_fatal hfatal] at hfs
    obtain ⟨f, d, hf, hline⟩ := Crew.line_go hfs hp
    rw [crew_of_not_fatal hfatal]
    exact ⟨f, hf, .inr ⟨d, hline⟩⟩

end Runner

end Rehearsal
