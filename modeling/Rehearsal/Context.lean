import Rehearsal.Text.Quoted
import Rehearsal.Text.Sorted

/-!
# Context

The context is the state that hooks and steps share. It consists of layers, one for every
scope that is open, and a name is looked up from the innermost layer outwards. Values are
kept with their owner: names that belong to the runner cannot be set by user code. The
context also collects what is written to the two output streams, and two switches for the
scenario under way.

A layer is shared when copies of it are in use elsewhere; its values cannot be changed in
place then.
-/

namespace Rehearsal

inductive ScopeLevel where
  | root
  | suite
  | feature
  | rule
  | scenario
  deriving DecidableEq, Repr, Inhabited

def ScopeLevel.name : ScopeLevel → String
  | root => "root"
  | suite => "suite"
  | feature => "feature"
  | rule => "rule"
  | scenario => "scenario"

def ScopeLevel.title : ScopeLevel → String
  | root => "Root"
  | suite => "Suite"
  | feature => "Feature"
  | rule => "Rule"
  | scenario => "Scenario"

inductive Owner where
  | runner
  | user
  deriving DecidableEq, Repr, Inhabited

inductive Datum.Kind where
  | int
  | truth
  | text
  | texts
  deriving DecidableEq, Repr, Inhabited

def Datum.Kind.Carrier : Datum.Kind → Type
  | int => Int
  | truth => Bool
  | text => String
  | texts => List String

inductive Datum where
  | int (n : Int)
  | truth (b : Bool)
  | text (s : String)
  | texts (l : List String)
  deriving DecidableEq, Repr, Inhabited

namespace Datum

def as? : (k : Kind) → Datum → Option k.Carrier
  | .int, int n => some n
  | .truth, truth b => some b
  | .text, text s => some s
  | .texts, texts l => some l
  | _, _ => none

def of : (k : Kind) → k.Carrier → Datum
  | .int, n => int n
  | .truth, b => truth b
  | .text, s => text s
  | .texts, l => texts l

end Datum

structure Stored where
  datum : Datum
  owner : Owner
  deriving DecidableEq, Repr, Inhabited

structure Layer where
  level : ScopeLevel
  values : List (String × Stored)
  shared : Bool
  deriving DecidableEq, Repr, Inhabited

namespace Layer

def empty (level : ScopeLevel) : Layer := ⟨level, [], false⟩

/-- Puts a value under a key, in place of the value there was. -/
def putValue (key : String) (s : Stored) : List (String × Stored) → List (String × Stored)
  | [] => [(key, s)]
  | (k, old) :: rest => if k = key then (key, s) :: rest else (k, old) :: putValue key s rest

def put (l : Layer) (key : String) (s : Stored) : Layer :=
  { l with values := putValue key s l.values }

def find? (l : Layer) (key : String) : Option Stored := l.values.lookup key

theorem lookup_putValue_self (key : String) (s : Stored) (values : List (String × Stored)) :
    (putValue key s values).lookup key = some s := by
  induction values with
  | nil => simp [putValue]
  | cons v rest ih =>
    by_cases hv : v.1 = key
    · rw [putValue, if_pos hv, List.lookup_cons, beq_self_eq_true]
    · rw [putValue, if_neg hv, List.lookup_cons, beq_eq_false_iff_ne.2 (Ne.symm hv)]
      exact ih

theorem lookup_putValue_ne {key key' : String} (hne : key' ≠ key) (s : Stored)
    (values : List (String × Stored)) :
    (putValue key' s values).lookup key = values.lookup key := by
  induction values with
  | nil => simp [putValue, hne.symm]
  | cons v rest ih =>
    by_cases hv : v.1 = key'
    · have hkey : (key == v.1) = false := beq_eq_false_iff_ne.2 fun h => hne (hv.symm.trans h.symm)
      rw [putValue, if_pos hv, List.lookup_cons, List.lookup_cons, hkey,
        beq_eq_false_iff_ne.2 hne.symm]
    · rw [putValue, if_neg hv, List.lookup_cons, List.lookup_cons, ih]

@[simp] theorem find?_put_self (l : Layer) (key : String) (s : Stored) :
    (l.put key s).find? key = some s :=
  lookup_putValue_self key s l.values

theorem find?_put_ne (l : Layer) {key key' : String} (hne : key' ≠ key) (s : Stored) :
    (l.put key' s).find? key = l.find? key :=
  lookup_putValue_ne hne s l.values

end Layer

structure Output where
  stdout : String
  stderr : String
  deriving DecidableEq, Repr, Inhabited

def Output.empty : Output := ⟨"", ""⟩

/-- Switches for the scenario under way. -/
structure Control where
  skipReason : Option String
  continueAfterFailure : Bool
  deriving DecidableEq, Repr, Inhabited

/-- The state shared by hooks and steps; the innermost layer comes first. -/
structure Context where
  layers : List Layer
  output : Output
  control : Control
  deriving DecidableEq, Repr, Inhabited

namespace Context

def fresh : Context := ⟨[.empty .root], .empty, ⟨none, false⟩⟩

def findIn (key : String) : List Layer → Option (ScopeLevel × Stored)
  | [] => none
  | l :: rest =>
    match l.find? key with
    | some s => some (l.level, s)
    | none => findIn key rest

/-- The innermost value under a key, with the level of its layer. -/
def find? (c : Context) (key : String) : Option (ScopeLevel × Stored) := findIn key c.layers

def level (c : Context) : ScopeLevel :=
  match c.layers with
  | [] => .root
  | l :: _ => l.level

/-- All keys, sorted, each once. -/
def keys (c : Context) : List String :=
  Text.sorted (c.layers.flatMap fun l => l.values.map (·.1))

def push (c : Context) (level : ScopeLevel) : Context :=
  { c with layers := .empty level :: c.layers }

/-- Closes the innermost scope; the root layer stays. -/
def pop (c : Context) : Context :=
  match c.layers with
  | _ :: l :: rest => { c with layers := l :: rest }
  | _ => c

def store (c : Context) (key : String) (s : Stored) : Context :=
  match c.layers with
  | [] => c
  | l :: rest => { c with layers := l.put key s :: rest }

/-- Stores a value for the runner. -/
def own (c : Context) (key : String) (d : Datum) : Context := c.store key ⟨d, .runner⟩

structure Masked where
  key : String
  deriving DecidableEq, Repr, Inhabited

def Masked.message (m : Masked) : String :=
  "`" ++ m.key ++ "` is owned by the runner and cannot be overwritten from user code"

/-- Stores a value for user code, unless the key belongs to the runner. -/
def set (c : Context) (key : String) (d : Datum) : Except Masked Context :=
  match c.find? key with
  | some (_, ⟨_, .runner⟩) => .error ⟨key⟩
  | _ => .ok (c.store key ⟨d, .user⟩)

theorem eq_store_of_set {c c₁ : Context} {key : String} {d : Datum}
    (h : c.set key d = .ok c₁) : c₁ = c.store key ⟨d, .user⟩ := by
  unfold set at h
  split at h
  · cases h
  · exact (Except.ok.inj h).symm

theorem owner_of_set {c : Context} {key : String} {d : Datum} {e : Masked}
    (h : c.set key d = .error e) : (c.find? key).map (·.2.owner) = some .runner := by
  unfold set at h
  split at h
  · rename_i found
    rw [found]
    rfl
  · cases h

/-- Changes the innermost value under a key in place, if it is of the kind and not shared:
the layers after the change, and the new value. -/
def updateIn (key : String) (k : Datum.Kind) (f : k.Carrier → k.Carrier) :
    List Layer → Option (List Layer × k.Carrier)
  | [] => none
  | l :: rest =>
    match l.find? key with
    | some s =>
      if l.shared then none
      else
        match s.datum.as? k with
        | some x => some (l.put key { s with datum := .of k (f x) } :: rest, f x)
        | none => none
    | none => (updateIn key k f rest).map fun (rest, x) => (l :: rest, x)

def update (c : Context) (key : String) (k : Datum.Kind) (f : k.Carrier → k.Carrier) :
    Context × Option k.Carrier :=
  match updateIn key k f c.layers with
  | some (layers, x) => ({ c with layers := layers }, some x)
  | none => (c, none)

/-- Starts an attempt at a scenario. -/
def resetControl (c : Context) (continueAfterFailure : Bool) : Context :=
  { c with control := ⟨none, continueAfterFailure⟩ }

def clearOutput (c : Context) : Context := { c with output := .empty }

/-- A copy for a worker of its own: the layers are shared from now on, output and switches
start anew. -/
def fork (c : Context) : Context :=
  ⟨c.layers.map fun l => { l with shared := true }, .empty, ⟨none, false⟩⟩

/-- What user code may read. -/
structure View where
  level : ScopeLevel
  levels : List ScopeLevel
  visible : List (String × ScopeLevel × Stored)
  output : Output
  continueAfterFailure : Bool
  deriving DecidableEq, Repr, Inhabited

/-- What user code may read of a context. The levels are listed from the outside in. -/
def view (c : Context) : View :=
  ⟨c.level, (c.layers.map (·.level)).reverse,
    c.keys.filterMap fun key => (c.find? key).map fun found => (key, found),
    c.output, c.control.continueAfterFailure⟩

namespace View

def find? (v : View) (key : String) : Option (ScopeLevel × Stored) := v.visible.lookup key

def get? (v : View) (key : String) (k : Datum.Kind) : Option k.Carrier :=
  (v.find? key).bind fun found => found.2.datum.as? k

def keys (v : View) : List String := v.visible.map (·.1)

def describe (v : View) : String :=
  "Context \x7b levels: [" ++ ", ".intercalate (v.levels.map (·.title)) ++ "], keys: " ++
    Text.quoteList v.keys ++ ", .. \x7d"

end View

@[simp] theorem level_push (c : Context) (l : ScopeLevel) : (c.push l).level = l := rfl

end Context

end Rehearsal
