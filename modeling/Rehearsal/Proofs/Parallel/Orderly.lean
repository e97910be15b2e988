import Rehearsal.Proofs.Conduct

/-!
# Orderly work

The work on a feature opens a scope of its own before it calls anything, closes the scopes that
it has opened and no others, and looks at the switches only where it has set them itself. Such
work is orderly: it leaves alone what was there before it. `Work.Orderly` keeps the account of
the scopes that the work has opened. It says less than `Work.Conducted`, which knows the nodes that
the scopes belong to, and is derived from it (`Work.Conducted.orderly`).

User code is called only while the scope `outer` is open: that of the suite when a run opens or
closes, and that of the feature in between.
-/

namespace Rehearsal

/-- The scopes that some work has opened, the innermost first, and whether the switches were set
since the innermost was opened. -/
structure Scopes where
  levels : List ScopeLevel
  steered : Bool

/-- User code may be called: the scope is open, and in a scenario the switches were set. -/
structure Scopes.Ready (outer : ScopeLevel) (s : Scopes) : Prop where
  inside : outer ∈ s.levels
  steered : s.levels.head? = some .scenario → s.steered = true

namespace Request

def scopes : Request → Scopes → Scopes
  | enter level _, s => ⟨level :: s.levels, false⟩
  | leave, s => ⟨s.levels.tail, false⟩
  | reset _, s => ⟨s.levels, true⟩
  | _, s => s

/-- Is it orderly to make the request? -/
def Fits (outer : ScopeLevel) : Request → Scopes → Prop
  | leave, s => s.levels ≠ []
  | reset _, s => s.levels.head? = some .scenario
  | control, s => s.steered = true
  | hooks _, s => s.Ready outer
  | call _ _, s => s.Ready outer
  | _, _ => True

end Request

namespace Work

/-- All requests of the work are orderly, and take the scopes from one state to the other. -/
inductive Orderly (outer : ScopeLevel) : Work α → Scopes → Scopes → Prop
  | done (a : α) (s : Scopes) : Orderly outer (.done a) s s
  | ask {q : Request} {next : q.Reply → Work α} {s t : Scopes} (hfits : q.Fits outer s)
      (rest : ∀ reply, Orderly outer (next reply) (q.scopes s) t) :
      Orderly outer (.ask q next) s t

end Work

/-- The scopes of the open nodes above the floor. -/
def Standing.scopes (floor : Nat) (s : Standing) : Scopes :=
  ⟨(s.nodes.take (s.nodes.length - floor)).map (·.level), s.steered⟩

/-- In every node above the floor the scope is open. -/
def Encloses (p : Plan) (floor : Nat) (outer : ScopeLevel) : Prop :=
  ∀ n nodes, OpenNode.Linked p (n :: nodes) → floor ≤ nodes.length →
    outer ∈ (n :: nodes.take (nodes.length - floor)).map (·.level)

theorem encloses_suite (p : Plan) : Encloses p 0 .suite := by
  intro n nodes hlinked _
  rw [Nat.sub_zero, List.take_length]
  induction nodes generalizing n with
  | nil =>
    obtain rfl : n = .suite p := hlinked
    exact List.mem_cons_self
  | cons m rest ih => exact List.mem_cons_of_mem _ (ih m hlinked.tail (Nat.zero_le _))

theorem encloses_feature (p : Plan) : Encloses p 1 .feature := by
  intro n nodes hlinked hfloor
  induction nodes generalizing n with
  | nil => exact absurd hfloor (Nat.not_succ_le_zero 0)
  | cons m rest ih =>
    cases rest with
    | nil =>
      obtain ⟨hholds, hm⟩ := hlinked
      obtain rfl : m = .suite p := hm
      rw [List.map_cons, OpenNode.level_of_suite_holds hholds]
      exact List.mem_cons_self
    | cons k rest =>
      exact List.mem_cons_of_mem _ (ih m hlinked.tail (Nat.succ_le_succ (Nat.zero_le _)))

variable {p : Plan} {floor : Nat} {outer : ScopeLevel} {n : OpenNode} {nodes : List OpenNode}

theorem Standing.scopes_cons (hfloor : floor ≤ nodes.length) (steered : Bool) :
    Standing.scopes floor ⟨n :: nodes, steered⟩ =
      ⟨n.level :: (nodes.take (nodes.length - floor)).map (·.level), steered⟩ := by
  rw [scopes, List.length_cons, Nat.succ_sub hfloor, List.take_succ_cons, List.map_cons]

theorem Standing.Ready.scopes {s : Standing} (h : s.Ready floor n)
    (hlinked : OpenNode.Linked p s.nodes) (houter : Encloses p floor outer) :
    (s.scopes floor).Ready outer := by
  obtain ⟨nodes, steered⟩ := s
  obtain ⟨⟨nodes, rfl, hfloor⟩, hsteered⟩ := h
  rw [Standing.scopes_cons hfloor]
  exact ⟨houter n nodes hlinked hfloor, fun h => hsteered (Option.some.inj h)⟩

/-- A request that the runner makes is orderly. -/
theorem Request.Leads.orderly {q : Request} {s t : Standing} (h : q.Leads p floor s t)
    (hlinked : OpenNode.Linked p s.nodes) (hfloor : floor ≤ s.nodes.length)
    (houter : Encloses p floor outer) :
    q.Fits outer (s.scopes floor) ∧ t.scopes floor = q.scopes (s.scopes floor) ∧
      floor ≤ t.nodes.length := by
  cases h with
  | @enter level values n nodes steered hlevel hvalues hnode =>
    subst hlevel
    refine ⟨trivial, ?_, Nat.le_succ_of_le hfloor⟩
    rw [Standing.scopes_cons hfloor]
    rfl
  | @leave n nodes steered hready =>
    obtain ⟨⟨nodes', hnodes, hfloor⟩, -⟩ := hready
    cases hnodes
    rw [Standing.scopes_cons hfloor]
    exact ⟨List.cons_ne_nil _ _, rfl, hfloor⟩
  | reset hon hfloor' =>
    rw [Standing.scopes_cons hfloor', Standing.scopes_cons hfloor']
    exact ⟨rfl, rfl, hfloor⟩
  | control hready => exact ⟨hready.steered rfl, rfl, hfloor⟩
  | isStopped hsteady => exact ⟨trivial, rfl, hfloor⟩
  | stop hsteady => exact ⟨trivial, rfl, hfloor⟩
  | find hready => exact ⟨trivial, rfl, hfloor⟩
  | hooks hready hhears => exact ⟨hready.scopes hlinked houter, rfl, hfloor⟩
  | call hready => exact ⟨hready.scopes hlinked houter, rfl, hfloor⟩

namespace Work

/-- Work that is done as the runner does it is orderly. -/
theorem Conducted.orderly {w : Work α} {heard : Bool} {s t : Standing}
    (h : w.Conducted p floor heard s t) (hlinked : OpenNode.Linked p s.nodes)
    (hfloor : floor ≤ s.nodes.length) (houter : Encloses p floor outer) :
    w.Orderly outer (s.scopes floor) (t.scopes floor) := by
  induction h with
  | done a heard s => exact .done a _
  | ask hleads hfresh rest ih =>
    obtain ⟨hfits, hscopes, hfloor'⟩ := hleads.orderly hlinked hfloor houter
    refine .ask hfits fun reply => ?_
    rw [← hscopes]
    exact ih reply (hleads.linked hlinked) hfloor'

/-- The work on a feature closes all scopes that it opens. -/
theorem orderly_runFeature (o : RunOptions) (q : PlannedFeature) :
    (o.runFeature q).Orderly .feature ⟨[], false⟩ ⟨[], false⟩ := by
  let p : Plan := ⟨[q]⟩
  have hlinked : OpenNode.Linked p [.feature q, .suite p] :=
    (OpenNode.linked_suite p).cons List.mem_cons_self
  have hwork : (o.runFeature q).Conducted p 1 false ⟨[.suite p], false⟩ ⟨[.suite p], false⟩ :=
    conducted_runFeature (Nat.le_refl 1) hlinked o
  exact hwork.orderly (OpenNode.linked_suite p) (Nat.le_refl 1) (encloses_feature p)

theorem orderly_openRun (o : RunOptions) :
    o.openRun.Orderly .suite ⟨[], false⟩ ⟨[.suite], false⟩ :=
  (conducted_openRun o ⟨[]⟩).orderly trivial (Nat.le_refl 0) (encloses_suite ⟨[]⟩)

theorem orderly_closeRun (o : RunOptions) (opening : Opening) (fs : List FeatureResult) :
    (o.closeRun opening fs).Orderly .suite ⟨[.suite], false⟩ ⟨[], false⟩ := by
  let p : Plan := ⟨[]⟩
  have hwork : (o.closeRun opening fs).Conducted p 0 false ⟨[.suite p], false⟩ ⟨[], false⟩ :=
    conducted_closeRun o p opening fs
  exact hwork.orderly (OpenNode.linked_suite p) (Nat.zero_le 1) (encloses_suite p)

end Work

end Rehearsal
