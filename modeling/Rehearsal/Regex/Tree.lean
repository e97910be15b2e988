import Rehearsal.Regex.Basic
import Rehearsal.Regex.CharClass.Intervals

/-!
# Simplified expressions

The size of an expression is measured after it was simplified. Characters in a row become
one literal, a class of a single character becomes a literal too, groups without a number
disappear, alternatives that are all characters or all classes become one class, and what
all alternatives begin with is taken out in front.
-/

namespace Rehearsal

namespace Regex

/-- A simplified expression. Items in a row and alternatives are strung together to the
right; an item is no string of items, an alternative no string of alternatives. -/
inductive Tree where
  | empty
  /-- Characters in a row, given by their code points. -/
  | literal (characters : List Nat)
  | set (s : Text.Intervals)
  | look (l : Look)
  | group (index : Nat) (t : Tree)
  | rounds (least : Nat) (most : Option Nat) (greedy : Bool) (t : Tree)
  | concat (a b : Tree)
  | alternation (a b : Tree)
  deriving DecidableEq, Repr, Inhabited

namespace Tree

def ofIntervals (s : Text.Intervals) : Tree :=
  match s with
  | [(lo, hi)] => if lo = hi then literal [lo] else set s
  | s => set s

def ofClass (c : CharClass) : Tree := ofIntervals (Text.Intervals.characters c.intervals)

def nodes : Tree → Nat
  | group _ t => nodes t + 1
  | rounds _ _ _ t => nodes t + 1
  | concat a b => nodes a + nodes b + 1
  | alternation a b => nodes a + nodes b + 1
  | _ => 1

def items : Tree → List Tree
  | empty => []
  | concat a b => a :: items b
  | t => [t]

def alternatives : Tree → List Tree
  | alternation a b => a :: alternatives b
  | t => [t]

def joinLiterals : List Tree → List Tree
  | [] => []
  | literal cs :: rest =>
    match joinLiterals rest with
    | literal ds :: more => literal (cs ++ ds) :: more
    | more => literal cs :: more
  | t :: rest => t :: joinLiterals rest

def stringItems : List Tree → Tree
  | [] => empty
  | [t] => t
  | t :: rest => concat t (stringItems rest)

/-- Strings alternatives together; without alternatives nothing is matched. -/
def stringAlternatives : List Tree → Tree
  | [] => set []
  | [t] => t
  | t :: rest => alternation t (stringAlternatives rest)

def inRow (ts : List Tree) : Tree := stringItems (joinLiterals (ts.flatMap items))

def single? : Tree → Option Nat
  | literal [n] => some n
  | _ => none

def set? : Tree → Option Text.Intervals
  | set s => some s
  | _ => none

def all? (value? : Tree → Option α) : List Tree → Option (List α)
  | [] => some []
  | t :: rest =>
    match value? t, all? value? rest with
    | some a, some more => some (a :: more)
    | _, _ => none

/-- The class of alternatives that are all characters or all classes. -/
def classOf? (ts : List Tree) : Option Tree :=
  match all? single? ts with
  | some points => some (ofIntervals (.ofUnordered (points.map fun n => (n, n))))
  | none => (all? set? ts).map fun sets => ofIntervals (sets.foldr .union [])

/-- What two lists of items begin with. -/
def commonStart : List Tree → List Tree → List Tree
  | a :: as, b :: bs => if a = b then a :: commonStart as bs else []
  | _, _ => []

/-- The items that all alternatives begin with; each alternative has to be several items. -/
def sharedStart : List Tree → List Tree
  | [] => []
  | [t] =>
    match t with
    | concat _ _ => t.items
    | _ => []
  | t :: rest =>
    match t with
    | concat _ _ => commonStart t.items (sharedStart rest)
    | _ => []

/-- One of the trees. At most `fuel` times what all begin with is taken out in front. -/
def oneOfWithin (fuel : Nat) (ts : List Tree) : Tree :=
  let ts := ts.flatMap alternatives
  if ts.length ≤ 1 then stringAlternatives ts
  else
    match classOf? ts with
    | some t => t
    | none =>
      let start := sharedStart ts
      match fuel with
      | 0 => stringAlternatives ts
      | fuel + 1 =>
        if start.isEmpty then stringAlternatives ts
        else
          let rests := ts.map fun t => inRow (t.items.drop start.length)
          inRow (start ++ [oneOfWithin fuel rests])

/-- One of the trees. What is taken out in front makes the trees smaller. -/
def oneOf : List Tree → Tree
  | [t] => t
  | ts => oneOfWithin (ts.foldr (fun t n => t.nodes + n) 0) ts

@[simp] theorem inRow_nil : inRow [] = empty := rfl

@[simp] theorem oneOf_singleton (t : Tree) : oneOf [t] = t := rfl

/-- The fewest characters that are covered; a tree with a part that covers nothing at all has
no such number. -/
def minLength : Tree → Option Nat
  | empty => some 0
  | literal cs => some cs.length
  | set s => if s.isEmpty then none else some 1
  | look _ => some 0
  | group _ t => minLength t
  | rounds least _ _ t => (minLength t).map (least * ·)
  | concat a b =>
    match minLength a, minLength b with
    | some m, some n => some (m + n)
    | _, _ => none
  | alternation a b =>
    match minLength a, minLength b with
    | some m, some n => some (min m n)
    | _, _ => none

def onlyEmpty : Tree → Bool
  | empty => true
  | literal _ => false
  | set _ => false
  | look _ => true
  | group _ t => onlyEmpty t
  | rounds _ _ _ t => onlyEmpty t
  | concat a b => onlyEmpty a && onlyEmpty b
  | alternation a b => onlyEmpty a && onlyEmpty b

def beginsAtStart : Tree → Bool
  | look l => l == .textStart
  | group _ t => beginsAtStart t
  | rounds least _ _ t => 0 < least && beginsAtStart t
  | concat a b => beginsAtStart a || (onlyEmpty a && beginsAtStart b)
  | alternation a b => beginsAtStart a && beginsAtStart b
  | _ => false

def endsAtEnd : Tree → Bool
  | look l => l == .textEnd
  | group _ t => endsAtEnd t
  | rounds least _ _ t => 0 < least && endsAtEnd t
  | concat a b => endsAtEnd b || (onlyEmpty b && endsAtEnd a)
  | alternation a b => endsAtEnd a && endsAtEnd b
  | _ => false

end Tree

def alternatives : Regex → List Tree
  | empty => [.empty]
  | one c => [.ofClass c]
  | look l => [.look l]
  | group n r => [.group n (.oneOf (alternatives r))]
  | enclosed r => [.oneOf (alternatives r)]
  | seq a b => [.inRow [.oneOf (alternatives a), .oneOf (alternatives b)]]
  | alt a b => .oneOf (alternatives a) :: alternatives b
  | rounds least most greedy r => [.rounds least most greedy (.oneOf (alternatives r))]

def tree (r : Regex) : Tree := .oneOf r.alternatives

end Regex

end Rehearsal
