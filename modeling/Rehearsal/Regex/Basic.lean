import Rehearsal.Regex.CharClass

/-!
# Regular expressions

A regular expression over characters with look-around of one character, numbered
groups and repetition that prefers either more or fewer rounds. `Regex.Spans` is the
meaning as a relation: the expression covers the characters of a text from one
position to another. Which of several coverings a search returns is settled in
`Rehearsal.Regex.Search`.
-/

namespace Rehearsal

/-- Conditions on the characters next to a position. -/
inductive Look where
  | textStart
  | textEnd
  | lineStart (crlf : Bool)
  | lineEnd (crlf : Bool)
  | wordBoundary (ascii : Bool)
  | notWordBoundary (ascii : Bool)
  | wordStart (ascii : Bool)
  | wordEnd (ascii : Bool)
  | wordStartHalf (ascii : Bool)
  | wordEndHalf (ascii : Bool)
  deriving DecidableEq, Repr, Inhabited

namespace Look

def isWordAt (ascii : Bool) : Option Char → Bool
  | some c => (CharClass.word ascii).contains c
  | none => false

def before (text : Array Char) (i : Nat) : Option Char :=
  match i with
  | 0 => none
  | i + 1 => text[i]?

/-- Does the condition hold at position `i`? With `crlf` a carriage return ends a line
too, but a line never ends between a carriage return and a line feed. -/
def holds (text : Array Char) (i : Nat) (look : Look) : Bool :=
  let prev := before text i
  let next := text[i]?
  match look with
  | textStart => prev.isNone
  | textEnd => next.isNone
  | lineStart false => prev.isNone || prev == some '\n'
  | lineEnd false => next.isNone || next == some '\n'
  | lineStart true =>
    prev.isNone || prev == some '\n' || (prev == some '\r' && next != some '\n')
  | lineEnd true =>
    next.isNone || next == some '\r' || (next == some '\n' && prev != some '\r')
  | wordBoundary ascii => isWordAt ascii prev != isWordAt ascii next
  | notWordBoundary ascii => isWordAt ascii prev == isWordAt ascii next
  | wordStart ascii => !isWordAt ascii prev && isWordAt ascii next
  | wordEnd ascii => isWordAt ascii prev && !isWordAt ascii next
  | wordStartHalf ascii => !isWordAt ascii prev
  | wordEndHalf ascii => !isWordAt ascii next

end Look

/-- A regular expression. `rounds least most` is repetition, without an upper bound if there
is no `most`; it says whether a further round is preferred. `enclosed` is a group without a
number: it sets the alternatives inside it off from those around it. -/
inductive Regex where
  | empty
  | one (c : CharClass)
  | look (l : Look)
  | group (index : Nat) (r : Regex)
  | enclosed (r : Regex)
  | seq (a b : Regex)
  | alt (a b : Regex)
  | rounds (least : Nat) (most : Option Nat) (greedy : Bool) (r : Regex)
  deriving DecidableEq, Repr, Inhabited

namespace Regex

/-- `r.Spans text i j`: the expression covers `text` from position `i` to before
position `j`. -/
inductive Spans (text : Array Char) : Regex → Nat → Nat → Prop where
  | empty (i : Nat) : Spans text .empty i i
  | one (c : CharClass) (i : Nat) (x : Char) (hx : text[i]? = some x)
      (hc : c.contains x = true) : Spans text (.one c) i (i + 1)
  | look (l : Look) (i : Nat) (h : l.holds text i = true) : Spans text (.look l) i i
  | group (n : Nat) (r : Regex) (i j : Nat) (h : Spans text r i j) :
      Spans text (.group n r) i j
  | enclosed (r : Regex) (i j : Nat) (h : Spans text r i j) : Spans text (.enclosed r) i j
  | seq (a b : Regex) (i k j : Nat) (ha : Spans text a i k) (hb : Spans text b k j) :
      Spans text (.seq a b) i j
  | altLeft (a b : Regex) (i j : Nat) (h : Spans text a i j) : Spans text (.alt a b) i j
  | altRight (a b : Regex) (i j : Nat) (h : Spans text b i j) : Spans text (.alt a b) i j
  | roundsNone (most : Option Nat) (g : Bool) (r : Regex) (i : Nat) :
      Spans text (.rounds 0 most g r) i i
  | roundsMore (least : Nat) (most : Option Nat) (g : Bool) (r : Regex) (i k j : Nat)
      (hmore : 0 < least ∨ most ≠ some 0) (h : Spans text r i k)
      (hs : Spans text (.rounds (least - 1) (most.map (· - 1)) g r) k j) :
      Spans text (.rounds least most g r) i j

def onlyEmpty : Regex → Bool
  | empty => true
  | one _ => false
  | look _ => true
  | group _ r => onlyEmpty r
  | enclosed r => onlyEmpty r
  | seq a b => onlyEmpty a && onlyEmpty b
  | alt a b => onlyEmpty a && onlyEmpty b
  | rounds _ _ _ r => onlyEmpty r

/-- From `least` to `most` rounds. Rounds that can only be empty need not be done more than
once, no rounds at all are empty, and one round is the expression itself. -/
def repeated (least : Nat) (most : Option Nat) (greedy : Bool) (r : Regex) : Regex :=
  let (least, most) :=
    if r.onlyEmpty then (min least 1, some (min (most.getD 1) 1)) else (least, most)
  match least, most with
  | 0, some 0 => empty
  | 1, some 1 => r
  | least, most => rounds least most greedy r

/-- The number of states a search may be in inside the expression. -/
def size : Regex → Nat
  | empty => 1
  | one _ => 1
  | look _ => 1
  | group _ r => size r + 2
  | enclosed r => size r + 1
  | seq a b => size a + size b + 1
  | alt a b => size a + size b + 1
  | rounds least most _ r => (max least (most.getD 1) + 1) * (size r + 2)

end Regex

end Rehearsal
