import Rehearsal.Regex.Tree
import Rehearsal.Regex.Trie
import Rehearsal.Text.Utf8

/-!
# The size of an automaton

An expression is matched by two automata over bytes, one that reads a text forward and one
that reads it backward. An expression is refused when one of them takes more memory than
`Memory.limit`. The automata themselves are not built here; their states are counted as they
would be laid out: one state after the other, a copy of a part for each of its rounds, and
equal ends of the byte sequences of a class shared as far as a table of bounded size
remembers them.
-/

namespace Rehearsal

namespace Regex

/-- Memory taken so far: the number of states, and the bytes of the lists some of them keep. -/
structure Memory where
  states : Nat
  lists : Nat
  deriving DecidableEq, Repr, Inhabited

namespace Memory

def perState : Nat := 32

/-- The bytes of a link with an interval of bytes. -/
def perLink : Nat := 8

/-- The bytes of a way to go on without reading a byte. -/
def perWay : Nat := 4

def bytes (m : Memory) : Nat := perState * m.states + m.lists

def limit : Nat := 10 * 1024 * 1024

def isOver (m : Memory) : Bool := limit < m.bytes

def add (m : Memory) (states : Nat) : Memory := { m with states := m.states + states }

def addLinks (m : Memory) (links : Nat) : Memory :=
  ⟨m.states + 1, m.lists + perLink * links⟩

def addWays (m : Memory) (ways : Nat) : Memory := { m with lists := m.lists + perWay * ways }

end Memory

/-- The two directions in which an automaton reads. -/
inductive Direction where
  | forward
  | backward
  deriving DecidableEq, Repr, Inhabited

/-- A table that remembers the number of the state laid out for a key. Each slot holds one
key, the last one that fell to it. -/
structure Remembered where
  slots : Array (Option (List Nat × Nat))

namespace Remembered

def ofSize (slots : Nat) : Remembered := ⟨Array.replicate slots none⟩

/-- The slot of a key: its numbers are mixed by multiplication and exclusive or, modulo
`2 ^ 64`. -/
def slot (known : Remembered) (key : List Nat) : Nat :=
  let mixed : UInt64 := key.foldl
    (fun (h : UInt64) (n : Nat) => 1099511628211 * (h ^^^ n.toUInt64)) 14695981039346656037
  mixed.toNat % known.slots.size

def find? (known : Remembered) (key : List Nat) : Option Nat :=
  match known.slots.getD (known.slot key) none with
  | some (key', state) => if key' = key then some state else none
  | none => none

def put (known : Remembered) (key : List Nat) (state : Nat) : Remembered :=
  ⟨known.slots.setIfInBounds (known.slot key) (some (key, state))⟩

end Remembered

/-- A link under way: an interval of bytes and the number of the state behind it. -/
structure Link where
  lo : Nat
  hi : Nat
  next : Nat
  deriving DecidableEq, Repr, Inhabited

/-- A state that further sequences may still add links to: the links that are settled, the
last one first, and the interval of the link under way. -/
structure OpenState where
  settled : List Link
  underWay : Option (Nat × Nat)
  deriving Repr, Inhabited

def OpenState.settle (s : OpenState) (next : Nat) : OpenState :=
  match s.underWay with
  | some (lo, hi) => ⟨⟨lo, hi, next⟩ :: s.settled, none⟩
  | none => s

/-- A class under way, read forward: the memory, the states remembered, and the open states,
the deepest first. -/
structure Spread where
  memory : Memory
  known : Remembered
  opened : List OpenState

namespace Spread

/-- Lays out a state with the given links, unless such a state is remembered. -/
def settle (s : Spread) (links : List Link) : Spread × Nat :=
  let key := links.flatMap fun link => [link.lo, link.hi, link.next]
  match s.known.find? key with
  | some state => (s, state)
  | none =>
    let state := s.memory.states
    ({ s with memory := s.memory.addLinks links.length, known := s.known.put key state }, state)

/-- Lays out the open states of which more than `depth` others are open, and settles the link
that leads to them. -/
def closeTo (depth next : Nat) (s : Spread) : List OpenState → Spread
  | [] => s
  | top :: rest =>
    if depth < rest.length then
      let (s, state) := s.settle (top.settle next).settled.reverse
      closeTo depth state s rest
    else { s with opened := top.settle next :: rest }

/-- How many intervals of a sequence are under way in the open states, the outermost first. -/
def shared : List (Nat × Nat) → List OpenState → Nat
  | interval :: intervals, state :: states =>
    if state.underWay = some interval then shared intervals states + 1 else 0
  | _, _ => 0

def openRest (opened : List OpenState) : List (Nat × Nat) → List OpenState
  | [] => opened
  | first :: rest =>
    let opened := match opened with
      | top :: below => { top with underWay := some first } :: below
      | [] => [⟨[], some first⟩]
    rest.foldl (fun opened interval => ⟨[], some interval⟩ :: opened) opened

/-- Adds a sequence. `last` is the state behind the class. -/
def addSequence (last : Nat) (s : Spread) (intervals : List (Nat × Nat)) : Spread :=
  let depth := shared intervals s.opened.reverse
  let s := s.closeTo depth last s.opened
  { s with opened := openRest s.opened (intervals.drop depth) }

def finish (last : Nat) (s : Spread) : Memory :=
  let s := s.closeTo 0 last s.opened
  match s.opened with
  | root :: _ => (s.settle root.settled.reverse).1.memory
  | [] => s.memory

end Spread

/-- Lays out a class that is read forward: its sequences share what they begin with, and equal
states are laid out once as far as they are remembered. -/
def spreadForward (sequences : List (List (Nat × Nat))) (m : Memory) : Memory :=
  let last := m.states
  let start : Spread := ⟨m.add 1, .ofSize 10000, [⟨[], none⟩]⟩
  (sequences.foldl (Spread.addSequence last) start).finish last

/-- Lays out a sequence that is read backward, from its first interval on; `state` is the
state behind the intervals laid out. -/
def layBackward (m : Memory) (known : Remembered) (state : Nat) :
    List (Nat × Nat) → Memory × Remembered
  | [] => (m.addWays 1, known)
  | (lo, hi) :: rest =>
    let key := [state, lo, hi]
    match known.find? key with
    | some state => layBackward m known state rest
    | none => layBackward (m.add 1) (known.put key m.states) m.states rest

/-- Lays out a class that is read backward: a way to each of its sequences, of which equal
ends are laid out once as far as they are remembered. -/
def spreadBackward (sequences : List (List (Nat × Nat))) (m : Memory) : Memory :=
  let last := m.states + 1
  (sequences.foldl (fun (m, known) sequence => layBackward m known last sequence)
    (m.add 2, Remembered.ofSize 1000)).1

/-- Lays out a class. One of ASCII characters only is a single state with a link for each
interval. -/
def spread (d : Direction) (s : Text.Intervals) (m : Memory) : Memory :=
  if s.all fun interval => interval.2 ≤ 0x7F then (m.add 1).addLinks s.length
  else
    let sequences := Text.Utf8.sequencesOf s
    match d with
    | .forward => spreadForward sequences m
    | .backward => spreadBackward sequences m

/-- Lays out a trie: for every node that leads on, a state for each of its chunks with links,
and a choice between these and the ends of alternatives. -/
def Trie.lay (trie : Trie) (m : Memory) : Memory :=
  trie.foldl
    (fun m node =>
      if node.isLeaf then m
      else
        let filled := node.chunks.filter (!·.isEmpty)
        let m := filled.foldl
          (fun m chunk => if chunk.length = 1 then m.add 1 else m.addLinks chunk.length) m
        (m.add 1).addWays (filled.length + node.closed.length))
    (m.add 1)

/-- A part that is laid out: the memory after it, and whether the part ends in a choice, which
keeps a list of its ways. -/
structure Laid where
  memory : Memory
  inChoice : Bool

namespace Laid

def joined (p : Laid) : Memory := if p.inChoice then p.memory.addWays 1 else p.memory

/-- Lays out `n` more copies of a part. It stops when the limit is passed. -/
def copies (lay : Memory → Laid) (p : Laid) : Nat → Laid
  | 0 => p
  | n + 1 => if p.memory.isOver then p else copies lay (lay p.joined) n

def exactly (lay : Memory → Laid) (n : Nat) (m : Memory) : Laid :=
  match n with
  | 0 => ⟨m.add 1, false⟩
  | n + 1 => copies lay (lay m) n

/-- At least `n` rounds. If a round may be empty, no rounds at all are a choice of their own. -/
def atLeast (lay : Memory → Laid) (mayBeEmpty : Bool) (n : Nat) (m : Memory) : Laid :=
  match n with
  | 0 =>
    if mayBeEmpty then ⟨((lay m).joined.add 3).addWays 4, false⟩
    else ⟨((lay (m.add 1)).joined).addWays 1, true⟩
  | 1 => ⟨((lay m).joined.add 1).addWays 1, true⟩
  | n + 2 => ⟨((lay (exactly lay (n + 1) m).joined).joined.add 1).addWays 1, true⟩

def atMostOnce (lay : Memory → Laid) (m : Memory) : Laid :=
  ⟨((lay (m.add 1)).joined.add 1).addWays 2, false⟩

/-- From `least` to `most` rounds: each further round is a choice. -/
def between (lay : Memory → Laid) (least most : Nat) (m : Memory) : Laid :=
  let first := exactly lay least m
  let further (m : Memory) : Laid := lay ((m.add 1).addWays 2)
  ⟨(copies further ⟨first.memory.add 1, first.inChoice⟩ (most - least)).joined, false⟩

def rounds (lay : Memory → Laid) (mayBeEmpty : Bool) (least : Nat) (most : Option Nat)
    (m : Memory) : Laid :=
  match most with
  | none => atLeast lay mayBeEmpty least m
  | some most =>
    if least = 0 ∧ most = 1 then atMostOnce lay m
    else if least = most then exactly lay least m
    else between lay least most m

/-- Ends an alternative, the one with the given index. The choice between alternatives and
the state behind them are laid out after the second one. -/
def endAlternative (index : Nat) (p : Laid) : Memory :=
  (if index = 1 then p.joined.add 2 else p.joined).addWays 1

def ended (index : Option Nat) (p : Laid) : Laid :=
  match index with
  | some index => ⟨p.endAlternative index, false⟩
  | none => p

end Laid

def Tree.characters? : Tree → Option (List Nat)
  | literal cs => some cs
  | _ => none

def bytesOf (d : Direction) (cs : List Nat) : List Nat :=
  let bytes := cs.flatMap Text.Utf8.encode
  match d with
  | .forward => bytes
  | .backward => bytes.reverse

/-- Lays out a tree. `index` is its place among alternatives, if these are under way. -/
def Tree.lay (d : Direction) (index : Option Nat) (m : Memory) : Tree → Laid
  | empty => Laid.ended index ⟨m.add 1, false⟩
  | literal cs => Laid.ended index ⟨m.add (bytesOf d cs).length, false⟩
  | set s => Laid.ended index ⟨spread d s m, false⟩
  | look _ => Laid.ended index ⟨m.add 1, false⟩
  | group _ t =>
    Laid.ended index <|
      match d with
      | .forward => ⟨(lay d none (m.add 1) t).joined.add 1, false⟩
      | .backward => lay d none m t
  | rounds least most _ t =>
    let mayBeEmpty := match t.minLength with
      | some n => n == 0
      | none => true
    Laid.ended index (Laid.rounds (fun m => lay d none m t) mayBeEmpty least most m)
  | concat a b =>
    Laid.ended index <|
      match d with
      | .forward => lay d none (lay d none m a).joined b
      | .backward => lay d none (lay d none m b).joined a
  | alternation a b =>
    let literals := if index.isNone then all? characters? (a :: b.alternatives) else none
    match literals with
    | some literals => ⟨(Trie.ofAlternatives (literals.map (bytesOf d))).lay m, false⟩
    | none =>
      let index := index.getD 0
      lay d (some (index + 1)) ((lay d none m a).endAlternative index) b

/-- The memory that the automaton of a tree takes. One that may start or end anywhere has a
loop over all bytes in front, and one that is read forward notes where a match begins and
ends. -/
def Tree.memory (d : Direction) (t : Tree) : Memory :=
  let isFixed := match d with
    | .forward => t.beginsAtStart
    | .backward => t.endsAtEnd
  let front : Memory :=
    if isFixed then Memory.add ⟨0, 0⟩ 1 else ((Memory.add ⟨0, 0⟩ 2).addLinks 1).addWays 2
  match d with
  | .forward => (t.lay d none (front.add 1)).joined.add 2
  | .backward => (t.lay d none front).joined.add 1

def fits (r : Regex) : Bool :=
  let t := r.tree
  !(t.memory .forward).isOver && !(t.memory .backward).isOver

end Regex

end Rehearsal
