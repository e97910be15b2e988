/-!
# Statuses

The verdict on a node. Statuses are ordered by weight, and the status of a node made of
others is the heaviest of theirs.
-/

namespace Rehearsal

/-- The verdict on a step, scenario, rule, feature or run. -/
inductive Status where
  | untested
  | skipped
  | passed
  | undefined
  | error
  | failed
  deriving DecidableEq, Repr, Inhabited

namespace Status

def all : List Status := [untested, skipped, passed, undefined, error, failed]

def weight : Status → Nat
  | untested => 0
  | skipped => 1
  | passed => 2
  | undefined => 3
  | error => 4
  | failed => 5

instance : LE Status := ⟨fun a b => a.weight ≤ b.weight⟩

instance (a b : Status) : Decidable (a ≤ b) := inferInstanceAs (Decidable (a.weight ≤ b.weight))

def max (a b : Status) : Status := if a ≤ b then b else a

/-- The heaviest of some statuses, `untested` if there is none. -/
def rollup (ss : List Status) : Status := ss.foldl max untested

def isFailure (s : Status) : Bool := s == failed || s == error

/-- Is the status at most `passed`? -/
def isSuccess (s : Status) : Bool := decide (s ≤ passed)

def name : Status → String
  | untested => "untested"
  | skipped => "skipped"
  | passed => "passed"
  | undefined => "undefined"
  | error => "error"
  | failed => "failed"

theorem le_def (a b : Status) : a ≤ b ↔ a.weight ≤ b.weight := Iff.rfl

theorem weight_injective {a b : Status} (h : a.weight = b.weight) : a = b := by
  cases a <;> cases b <;> first | rfl | exact absurd h (by decide)

theorem weight_max (a b : Status) : (a.max b).weight = Nat.max a.weight b.weight := by
  cases a <;> cases b <;> rfl

@[simp] theorem rollup_nil : rollup [] = untested := rfl

end Status

end Rehearsal
