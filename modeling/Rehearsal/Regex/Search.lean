import Rehearsal.Regex.Basic
import Std.Data.HashSet

/-!
# Searching

A search walks through a text position by position. What is still to be covered is a
stack of tasks. Where there is a choice the preferred way is tried first and the other
ways wait, so the first walk that gets to the end of its stack is the one returned:
alternatives from left to right, and more rounds before fewer unless told otherwise.

A place, which is a stack with a position, is not tried again when it was met before.
Either it failed, and would fail again, or it lies on the walk under way, and going
through it again would be a round that covers nothing.
-/

namespace Rehearsal

namespace Regex

/-- Something still to be done: cover an expression, decide on a further round, or note
the end of a group. -/
inductive Task where
  | cover (r : Regex)
  | again (greedy : Bool) (r : Regex)
  | close (index : Nat)
  deriving DecidableEq, Repr, Inhabited

inductive Mark where
  | opened (index position : Nat)
  | closed (index position : Nat)
  deriving DecidableEq, Repr, Inhabited

/-- A walk under way: the tasks left, the position, and the marks set, the latest first. -/
structure Walk where
  tasks : List Task
  position : Nat
  marks : List Mark
  deriving Repr, Inhabited

/-- The next steps of a walk, the preferred one first. -/
def Walk.next (text : Array Char) (w : Walk) : List Walk :=
  match w.tasks with
  | [] => []
  | .cover .empty :: k => [{ w with tasks := k }]
  | .cover (.one c) :: k =>
    match text[w.position]? with
    | some x => if c.contains x then [{ w with tasks := k, position := w.position + 1 }] else []
    | none => []
  | .cover (.look l) :: k => if l.holds text w.position then [{ w with tasks := k }] else []
  | .cover (.group n r) :: k =>
    [{ w with tasks := .cover r :: .close n :: k, marks := .opened n w.position :: w.marks }]
  | .cover (.enclosed r) :: k => [{ w with tasks := .cover r :: k }]
  | .cover (.seq a b) :: k => [{ w with tasks := .cover a :: .cover b :: k }]
  | .cover (.alt a b) :: k =>
    [{ w with tasks := .cover a :: k }, { w with tasks := .cover b :: k }]
  | .cover (.rounds 0 (some 0) _ _) :: k => [{ w with tasks := k }]
  | .cover (.rounds 0 (some (most + 1)) greedy r) :: k =>
    let more := { w with tasks := .cover r :: .cover (.rounds 0 (some most) greedy r) :: k }
    let less := { w with tasks := k }
    if greedy then [more, less] else [less, more]
  | .cover (.rounds 0 none greedy r) :: k =>
    let more := { w with tasks := .cover r :: .again greedy r :: k }
    let less := { w with tasks := k }
    if greedy then [more, less] else [less, more]
  | .cover (.rounds 1 none greedy r) :: k =>
    [{ w with tasks := .cover r :: .again greedy r :: k }]
  | .cover (.rounds (least + 1) most greedy r) :: k =>
    [{ w with tasks := .cover r :: .cover (.rounds least (most.map (· - 1)) greedy r) :: k }]
  | .again greedy r :: k =>
    let more := { w with tasks := .cover r :: .again greedy r :: k }
    let less := { w with tasks := k }
    if greedy then [more, less] else [less, more]
  | .close n :: k => [{ w with tasks := k, marks := .closed n w.position :: w.marks }]

structure Place where
  tasks : List Task
  position : Nat
  deriving DecidableEq, Repr, Inhabited

/-- A number by which tasks are told apart at a glance: it looks at the rounds left only. -/
def Task.digest : Task → UInt64
  | .cover (.rounds least most _ _) => mixHash (hash least) (hash most)
  | .cover _ => 1
  | .again _ _ => 2
  | .close index => hash index

instance : Hashable Place where
  hash p := p.tasks.foldl (fun h t => mixHash h t.digest) (hash p.position)

abbrev Seen := Std.HashSet Place

def Walk.place (w : Walk) : Place := ⟨w.tasks, w.position⟩

/-- Takes up the waiting walks in turn until one is through. At most `fuel` places are
visited. -/
def explore (text : Array Char) (fuel : Nat) (seen : Seen) (waiting : List Walk) : Option Walk :=
  match waiting with
  | [] => none
  | w :: waiting =>
    if seen.contains w.place then explore text fuel seen waiting
    else if w.tasks.isEmpty then some w
    else
      match fuel with
      | 0 => none
      | fuel + 1 => explore text fuel (seen.insert w.place) (w.next text ++ waiting)
termination_by (fuel, waiting.length)

/-- The preferred walk through the expression from position `i`. Every place is visited at
most once, which bounds the number of visits. -/
def walkFrom (r : Regex) (text : Array Char) (i : Nat) : Option Walk :=
  explore text ((r.size + 1) * (text.size + 1)) ∅ [⟨[.cover r], i, []⟩]

/-- Searches from position `i` on; there are `left` more positions after it. -/
def searchFrom (r : Regex) (text : Array Char) (i : Nat) : Nat → Option (Nat × Walk)
  | 0 => (r.walkFrom text i).map fun w => (i, w)
  | left + 1 =>
    match r.walkFrom text i with
    | some w => some (i, w)
    | none => searchFrom r text (i + 1) left

def search (r : Regex) (text : Array Char) : Option (Nat × Walk) :=
  r.searchFrom text 0 text.size

def isFoundIn (r : Regex) (text : Array Char) : Bool := (r.search text).isSome

/-- The last position at which the group was opened. -/
def lastOpened (n : Nat) : List Mark → Option Nat
  | [] => none
  | .opened m i :: rest => if m = n then some i else lastOpened n rest
  | .closed _ _ :: rest => lastOpened n rest

def lastClosed (n : Nat) : List Mark → Option Nat
  | [] => none
  | .closed m i :: rest => if m = n then some i else lastClosed n rest
  | .opened _ _ :: rest => lastClosed n rest

/-- The positions between which the group last took part in a walk. -/
def Walk.span? (w : Walk) (n : Nat) : Option (Nat × Nat) :=
  match lastOpened n w.marks, lastClosed n w.marks with
  | some i, some j => some (i, j)
  | _, _ => none

end Regex

end Rehearsal
