import Rehearsal.Document
import Rehearsal.Result.Status
import Rehearsal.Script

/-!
# Hooks

A hook is a piece of user code that is called at a point of a run: before or after the
whole run, a feature, a rule, a scenario, a step or a tag. The hooks of one point are its
slot. A slot before something stops at its first failing hook; a slot after something calls
all its hooks and reports all failures together.
-/

namespace Rehearsal

inductive HookPoint where
  | beforeAll
  | afterAll
  | beforeFeature
  | afterFeature
  | beforeRule
  | afterRule
  | beforeScenario
  | afterScenario
  | beforeStep
  | afterStep
  | beforeTag
  | afterTag
  deriving DecidableEq, Repr, Inhabited

namespace HookPoint

def all : List HookPoint :=
  [beforeAll, afterAll, beforeFeature, afterFeature, beforeRule, afterRule, beforeScenario,
    afterScenario, beforeStep, afterStep, beforeTag, afterTag]

/-- Does the point come before something? -/
def isBefore : HookPoint → Bool
  | beforeAll | beforeFeature | beforeRule | beforeScenario | beforeStep | beforeTag => true
  | _ => false

def name : HookPoint → String
  | beforeAll => "before_all"
  | afterAll => "after_all"
  | beforeFeature => "before_feature"
  | afterFeature => "after_feature"
  | beforeRule => "before_rule"
  | afterRule => "after_rule"
  | beforeScenario => "before_scenario"
  | afterScenario => "after_scenario"
  | beforeStep => "before_step"
  | afterStep => "after_step"
  | beforeTag => "before_tag"
  | afterTag => "after_tag"

def title : HookPoint → String
  | beforeAll => "BeforeAll"
  | afterAll => "AfterAll"
  | beforeFeature => "BeforeFeature"
  | afterFeature => "AfterFeature"
  | beforeRule => "BeforeRule"
  | afterRule => "AfterRule"
  | beforeScenario => "BeforeScenario"
  | afterScenario => "AfterScenario"
  | beforeStep => "BeforeStep"
  | afterStep => "AfterStep"
  | beforeTag => "BeforeTag"
  | afterTag => "AfterTag"

end HookPoint

inductive HookScope where
  | suite
  | feature (f : Feature)
  | rule (r : Rule)
  | scenario (s : Scenario)
  | step (s : Step)
  | tag (name : String)
  deriving DecidableEq, Repr, Inhabited

/-- What a hook is told. The status is that of the node, for points after it. -/
structure HookEvent where
  point : HookPoint
  scope : HookScope
  status : Option Status
  deriving DecidableEq, Repr, Inhabited

def HookEvent.name (e : HookEvent) : String :=
  match e.scope with
  | .suite => ""
  | .feature f => f.name
  | .rule r => r.name
  | .scenario s => s.name
  | .step s => s.text
  | .tag name => name

structure HookError where
  point : HookPoint
  detail : String
  stop : Bool
  deriving DecidableEq, Repr, Inhabited

def HookError.message (e : HookError) : String := e.point.name ++ " hook failed: " ++ e.detail

structure Hook (W : Type) where
  point : HookPoint
  call : HookEvent → Script W Outcome

/-- The hooks of a run, in the order of their registration. -/
structure Hooks (W : Type) where
  hooks : List (Hook W)

namespace Hooks

def none : Hooks W := ⟨[]⟩

def register (h : Hooks W) (point : HookPoint) (call : HookEvent → Script W Outcome) : Hooks W :=
  ⟨h.hooks ++ [⟨point, call⟩]⟩

def slot (h : Hooks W) (point : HookPoint) : List (Hook W) :=
  h.hooks.filter fun hook => hook.point == point

def count (h : Hooks W) (point : HookPoint) : Nat := (h.slot point).length

/-- Calls hooks in order; `stopping` ends the calls at the first failure. -/
def callAll (stopping : Bool) (event : HookEvent) : List (Hook W) → Script W (List Outcome)
  | [] => .done []
  | hook :: rest =>
    (hook.call event).bind fun outcome =>
      if stopping && outcome.failure?.isSome then .done [outcome]
      else (callAll stopping event rest).bind fun outcomes => .done (outcome :: outcomes)

def call (h : Hooks W) (event : HookEvent) : Script W (List Outcome) :=
  callAll event.point.isBefore event (h.slot event.point)

/-- The failure of a slot with the given outcomes of its hooks. -/
def error? (point : HookPoint) (outcomes : List Outcome) : Option HookError :=
  let failures := outcomes.filterMap Outcome.failure?
  if failures.isEmpty then Option.none
  else some ⟨point, "\n".intercalate (failures.map (·.message)), failures.any (·.stop)⟩

/-- A description for diagnostics: the points that have hooks, and their number. -/
def describe (h : Hooks W) : String :=
  let entries := HookPoint.all.filterMap fun p =>
    if h.count p = 0 then Option.none else some (p.title ++ ": " ++ toString (h.count p))
  "\x7b" ++ ", ".intercalate entries ++ "\x7d"

end Hooks

end Rehearsal
