import Rehearsal.Regex.Form
import Rehearsal.Text.Recent

/-!
# Reading regular expressions

Reads the written form of a regular expression. In verbose mode blanks and comments,
from `#` to the end of the line, count only where they are escaped or inside the name
of a group. Look-around and back-references are no part of the notation. The reader
answers `none` where the text is no regular expression; it does not say why.

The open groups are kept on a stack. Every step of the reader leaves a shorter rest, and
a step that would not do so ends the reading.
-/

namespace Rehearsal

namespace Regex

namespace Reader

mutual

def dropBlanks : List Char → List Char
  | [] => []
  | c :: cs =>
    if Text.isBlank c then dropBlanks cs
    else if c = '#' then dropComment cs
    else c :: cs

def dropComment : List Char → List Char
  | [] => []
  | c :: cs => if c = '\n' then dropBlanks cs else dropComment cs

end

/-- What verbose mode does not read is dropped. -/
def skip (verbose : Bool) (cs : List Char) : List Char :=
  if verbose then dropBlanks cs else cs

@[simp] theorem skip_false (cs : List Char) : skip false cs = cs := rfl

mutual

theorem length_dropBlanks_le : ∀ cs : List Char, (dropBlanks cs).length ≤ cs.length
  | [] => by simp [dropBlanks]
  | c :: cs => by
    unfold dropBlanks
    have h1 := length_dropBlanks_le cs
    have h2 := length_dropComment_le cs
    split
    · simp; omega
    · split
      · simp; omega
      · simp

theorem length_dropComment_le : ∀ cs : List Char, (dropComment cs).length ≤ cs.length
  | [] => by simp [dropComment]
  | c :: cs => by
    unfold dropComment
    have h1 := length_dropBlanks_le cs
    have h2 := length_dropComment_le cs
    split <;> (simp; omega)

end

theorem length_skip_le (verbose : Bool) (cs : List Char) :
    (skip verbose cs).length ≤ cs.length := by
  unfold skip
  split
  · exact length_dropBlanks_le cs
  · exact Nat.le_refl _

def isMeta (c : Char) : Bool := "\\.+*?()|[]\x7b\x7d^$#&-~".toList.contains c

def isEscapable (c : Char) : Bool :=
  isMeta c || (c.toNat < 128 && !Text.isAsciiAlphanumeric c && c != '<' && c != '>')

def hexValue? (c : Char) : Option Nat :=
  if c.isDigit then some (c.toNat - '0'.toNat)
  else if 'a' ≤ c && c ≤ 'f' then some (c.toNat - 'a'.toNat + 10)
  else if 'A' ≤ c && c ≤ 'F' then some (c.toNat - 'A'.toNat + 10)
  else none

def charOf? (n : Nat) : Option Char := if n.isValidChar then some (Char.ofNat n) else none

/-- Reads `count` hexadecimal digits after the value `n`. -/
def readHexDigits (verbose : Bool) (n : Nat) : Nat → List Char → Option (Nat × List Char)
  | 0, cs => some (n, cs)
  | _ + 1, [] => none
  | count + 1, c :: cs =>
    match hexValue? c with
    | some v => readHexDigits verbose (16 * n + v) count (skip verbose cs)
    | none => none

/-- Reads hexadecimal digits up to a closing brace, at least one, after the digits
`digits`, the last one first. -/
def readHexBrace (verbose : Bool) (digits : List Nat) (cs : List Char) :
    Option (Nat × List Char) :=
  match cs with
  | [] => none
  | c :: rest =>
    if c = '\x7d' then
      if digits.isEmpty then none
      else
        let significant := digits.reverse.dropWhile (· == 0)
        if 8 < significant.length then none
        else some (significant.foldl (fun n d => 16 * n + d) 0, skip verbose rest)
    else
      match hexValue? c with
      | some v => readHexBrace verbose (v :: digits) (skip verbose rest)
      | none => none
termination_by cs.length
decreasing_by
  have := length_skip_le verbose rest
  simp
  omega

/-- Reads what follows `\x`, `\u` or `\U`; `count` digits without braces. -/
def readHex (verbose : Bool) (count : Nat) (cs : List Char) : Option (Literal × List Char) :=
  let digits := match skip verbose cs with
    | '\x7b' :: rest => readHexBrace verbose [] (skip verbose rest)
    | rest => readHexDigits verbose 0 count rest
  match digits with
  | some (n, rest) =>
    let braced := (skip verbose cs).head? == some '\x7b'
    (charOf? n).map fun c => (⟨c, count == 2 && !braced⟩, rest)
  | none => none

def readPropertyName (verbose : Bool) (name : List Char) (cs : List Char) :
    Option (String × List Char) :=
  match cs with
  | [] => none
  | c :: rest =>
    if c = '\x7d' then some (String.ofList name.reverse, rest)
    else readPropertyName verbose (c :: name) (skip verbose rest)
termination_by cs.length
decreasing_by
  have := length_skip_le verbose rest
  simp
  omega

def readProperty (verbose : Bool) (cs : List Char) : Option (String × List Char) :=
  match skip verbose cs with
  | [] => none
  | '\x7b' :: rest => readPropertyName verbose [] (skip verbose rest)
  | c :: rest => if c = '\\' then none else some (String.singleton c, skip verbose rest)

/-- The letters of the name of a word boundary and the rest. -/
def readBoundaryName (verbose : Bool) (name : List Char) (cs : List Char) :
    String × List Char :=
  match cs with
  | [] => (String.ofList name.reverse, [])
  | c :: rest =>
    if c.isAlpha || c = '-' then readBoundaryName verbose (c :: name) (skip verbose rest)
    else (String.ofList name.reverse, c :: rest)
termination_by cs.length
decreasing_by
  have := length_skip_le verbose rest
  simp
  omega

/-- Reads what follows `\b`. A brace with no letter after it belongs to a repetition. -/
def readBoundary (verbose : Bool) (cs : List Char) : Option (Assertion × List Char) :=
  match cs with
  | '\x7b' :: rest =>
    match skip verbose rest with
    | [] => none
    | c :: more =>
      if c.isAlpha || c = '-' then
        match readBoundaryName verbose [] (c :: more) with
        | (name, '\x7d' :: rest) =>
          if name = "start" then some (.wordStart, rest)
          else if name = "end" then some (.wordEnd, rest)
          else if name = "start-half" then some (.wordStartHalf, rest)
          else if name = "end-half" then some (.wordEndHalf, rest)
          else none
        | _ => none
      else some (.wordBoundary, cs)
  | _ => some (.wordBoundary, cs)

def readEscape (verbose : Bool) : List Char → Option (Form × List Char)
  | [] => none
  | c :: rest =>
    let literal (x : Char) : Option (Form × List Char) := some (.literal ⟨x, false⟩, rest)
    if c = 'x' then (readHex verbose 2 rest).map fun (l, rest) => (.literal l, rest)
    else if c = 'u' then (readHex verbose 4 rest).map fun (l, rest) => (.literal l, rest)
    else if c = 'U' then (readHex verbose 8 rest).map fun (l, rest) => (.literal l, rest)
    else if c = 'p' then (readProperty verbose rest).map fun (n, rest) => (.property n false, rest)
    else if c = 'P' then (readProperty verbose rest).map fun (n, rest) => (.property n true, rest)
    else if c = 'd' then some (.named .digit false, rest)
    else if c = 'D' then some (.named .digit true, rest)
    else if c = 's' then some (.named .space false, rest)
    else if c = 'S' then some (.named .space true, rest)
    else if c = 'w' then some (.named .word false, rest)
    else if c = 'W' then some (.named .word true, rest)
    else if isEscapable c then literal c
    else if c = 'a' then literal '\x07'
    else if c = 'f' then literal '\x0c'
    else if c = 't' then literal '\t'
    else if c = 'n' then literal '\n'
    else if c = 'r' then literal '\r'
    else if c = 'v' then literal '\x0b'
    else if c = 'A' then some (.assertion .textStart, rest)
    else if c = 'z' then some (.assertion .textEnd, rest)
    else if c = 'b' then (readBoundary verbose rest).map fun (a, rest) => (.assertion a, rest)
    else if c = 'B' then some (.assertion .notWordBoundary, rest)
    else if c = '<' then some (.assertion .wordStart, rest)
    else if c = '>' then some (.assertion .wordEnd, rest)
    else none

/-- The names of the ASCII sets that may stand between `[:` and `:]`. -/
def asciiSetNames : List String :=
  ["alnum", "alpha", "ascii", "blank", "cntrl", "digit", "graph", "lower", "print", "punct",
    "space", "upper", "word", "xdigit"]

def readAsciiSet? (cs : List Char) : Option (SetForm × List Char) :=
  match cs with
  | ':' :: rest =>
    let (negated, rest) := match rest with
      | '^' :: rest => (true, rest)
      | rest => (false, rest)
    let name := String.ofList (rest.takeWhile (· != ':'))
    match rest.dropWhile (· != ':') with
    | ':' :: ']' :: rest =>
      if asciiSetNames.contains name then some (.ascii name negated, rest) else none
    | _ => none
  | _ => none

/-- Reads one member of a bracketed set that is no bracket and no operator. -/
def readSetItem (verbose : Bool) : List Char → Option (Form × List Char)
  | [] => none
  | '\\' :: rest => readEscape verbose rest
  | c :: rest => some (.literal ⟨c, false⟩, rest)

def setItem? : Form → Option SetForm
  | .literal l => some (.literal l)
  | .named n negated => some (.named n negated)
  | .property n negated => some (.property n negated)
  | _ => none

/-- The character that decides what a hyphen in front of `cs` means: the first one that is
not blank, where in verbose mode the sign that opens a comment does not count, but the comment
does. -/
def deciding? (verbose : Bool) (cs : List Char) : Option Char :=
  if verbose then
    match cs.dropWhile Text.isBlank with
    | '#' :: comment => (comment.dropWhile Text.isBlank).head?
    | rest => rest.head?
  else cs.head?

/-- Reads a member or an interval. A hyphen stands for itself before the closing bracket, and
two of them are an operator. -/
def readSetRange (verbose : Bool) (cs : List Char) : Option (SetForm × List Char) := do
  let (first, rest) ← readSetItem verbose cs
  match skip verbose rest with
  | [] => none
  | '-' :: after =>
    let next := deciding? verbose after
    if next = some ']' || next = some '-' then return (← setItem? first, '-' :: after)
    else
      let (last, rest) ← readSetItem verbose (skip verbose after)
      match first, last with
      | .literal lo, .literal hi => if lo.char ≤ hi.char then some (.range lo hi, rest) else none
      | _, _ => none
  | rest => return (← setItem? first, rest)

/-- Reads the start of a bracketed set after its bracket: is it negated, and which members
stand where they need no escape? -/
def readSetStart (verbose : Bool) (cs : List Char) : Option (Bool × List SetForm × List Char) :=
  let cs := skip verbose cs
  let (negated, cs) := match cs with
    | '^' :: rest => (true, skip verbose rest)
    | cs => (false, cs)
  let rec hyphens (members : List SetForm) (fuel : Nat) (cs : List Char) :
      List SetForm × List Char :=
    match fuel, cs with
    | fuel + 1, '-' :: rest => hyphens (.literal ⟨'-', false⟩ :: members) fuel (skip verbose rest)
    | _, cs => (members, cs)
  let (members, cs) := hyphens [] cs.length cs
  match cs with
  | [] => none
  | ']' :: rest =>
    if members.isEmpty then
      match skip verbose rest with
      | [] => none
      | rest => some (negated, [.literal ⟨']', false⟩], rest)
    else some (negated, members, cs)
  | cs => some (negated, members, cs)

/-- An unfinished bracketed set: an open bracket with the members before it, or the left
side of an operator. -/
inductive Pending where
  | opened (members : List SetForm) (negated : Bool)
  | op (o : SetOp) (left : SetForm)

def applyPending : List Pending → SetForm → SetForm × List Pending
  | .op o left :: rest, right => (.op o left right, rest)
  | pending, right => (right, pending)

/-- Reads on inside brackets. `members` are the members of the union under way, the last
one first. -/
def readSet (verbose : Bool) (pending : List Pending) (members : List SetForm)
    (cs : List Char) : Option (SetForm × List Char) :=
  let here := skip verbose cs
  let operator (o : SetOp) : List Pending :=
    let (left, pending) := applyPending pending (SetForm.ofReversed members)
    .op o left :: pending
  let continueWith (pending : List Pending) (members : List SetForm) (rest : List Char) :
      Option (SetForm × List Char) :=
    if rest.length < cs.length then readSet verbose pending members rest else none
  match here with
  | [] => none
  | '[' :: rest =>
    match readAsciiSet? rest with
    | some (item, rest) => continueWith pending (item :: members) rest
    | none =>
      match readSetStart verbose rest with
      | some (negated, first, rest) => continueWith (.opened members negated :: pending) first rest
      | none => none
  | ']' :: rest =>
    match applyPending pending (SetForm.ofReversed members) with
    | (inner, .opened outer negated :: pending) =>
      if pending.isEmpty then some (.bracket negated inner, rest)
      else continueWith pending (.bracket negated inner :: outer) rest
    | _ => none
  | '&' :: '&' :: rest => continueWith (operator .inter) [] rest
  | '-' :: '-' :: rest => continueWith (operator .diff) [] rest
  | '~' :: '~' :: rest => continueWith (operator .symmDiff) [] rest
  | here =>
    match readSetRange verbose here with
    | some (item, rest) => continueWith pending (item :: members) rest
    | none => none
termination_by cs.length

def readBracket (verbose : Bool) (cs : List Char) : Option (Form × List Char) := do
  let (negated, first, rest) ← readSetStart verbose cs
  match ← readSet verbose [.opened [] negated] first rest with
  | (.bracket negated inner, rest) => some (.bracket negated inner, rest)
  | _ => none

def flagOf? (c : Char) : Option Flag :=
  if c = 'i' then some .caseless
  else if c = 'm' then some .multiline
  else if c = 's' then some .dotAll
  else if c = 'U' then some .swapGreed
  else if c = 'u' then some .unicode
  else if c = 'R' then some .crlf
  else if c = 'x' then some .verbose
  else none

/-- Reads flags up to `:` or `)`. `on` tells whether the flags read are switched on, and
`dangling` whether a minus sign came last. The answer tells whether `)` ended them. -/
def readFlags (on dangling : Bool) (changes : FlagChanges) :
    List Char → Option (FlagChanges × Bool × List Char)
  | [] => none
  | c :: rest =>
    if c = ':' || c = ')' then
      if dangling then none else some (changes.reverse, c == ')', rest)
    else if c = '-' then
      if on then readFlags false true changes rest else none
    else
      match flagOf? c with
      | some f =>
        if changes.any (fun change => change.1 == f) then none
        else readFlags on false ((f, on) :: changes) rest
      | none => none

def isNameChar (first : Bool) (c : Char) : Bool :=
  if first then c == '_' || Text.Recent.isLetter c
  else c == '_' || c == '.' || c == '[' || c == ']' || Text.Recent.isAlphanumeric c

def readName (name : List Char) : List Char → Option (String × List Char)
  | [] => none
  | c :: rest =>
    if c = '>' then if name.isEmpty then none else some (String.ofList name.reverse, rest)
    else if isNameChar name.isEmpty c then readName (c :: name) rest
    else none

def readDigits (verbose : Bool) (digits : List Char) (cs : List Char) : List Char × List Char :=
  match cs with
  | [] => (digits.reverse, [])
  | c :: rest =>
    if c.isDigit then readDigits verbose (c :: digits) (skip verbose rest)
    else (digits.reverse, cs)
termination_by cs.length
decreasing_by
  have := length_skip_le verbose rest
  simp
  omega

/-- A number of rounds as written, blanks around it: nothing at all, or a number. -/
inductive Count where
  | missing
  | number (n : Nat)

/-- Reads a number of rounds, at most `2 ^ 32 - 1`. -/
def readCount (verbose : Bool) (cs : List Char) : Option (Count × List Char) :=
  let (digits, rest) := readDigits verbose [] (cs.dropWhile Text.isBlank)
  let rest := skip verbose (rest.dropWhile Text.isBlank)
  if digits.isEmpty then some (.missing, rest)
  else
    let n := digits.foldl (fun n c => 10 * n + (c.toNat - '0'.toNat)) 0
    if n < Nat.pow 2 32 then some (.number n, rest) else none

/-- Reads a question mark that turns the preference round. -/
def readGreed : List Char → Bool × List Char
  | '?' :: rest => (false, rest)
  | rest => (true, rest)

def readRounds (verbose : Bool) (cs : List Char) :
    Option (Nat × Option Nat × Bool × List Char) := do
  let (least, rest) ← readCount verbose (skip verbose cs)
  let (least, most, rest) ← match least, rest with
    | .number least, ',' :: rest =>
      match skip verbose rest with
      | '\x7d' :: rest => some (least, none, '\x7d' :: rest)
      | rest =>
        match readCount verbose rest with
        | some (.number most, rest) => some (least, some most, rest)
        | _ => none
    | .number least, rest => some (least, some least, rest)
    | .missing, _ => none
  match rest with
  | '\x7d' :: rest =>
    let (greedy, rest) := readGreed (skip verbose rest)
    match most with
    | some most => if least ≤ most then some (least, some most, greedy, rest) else none
    | none => some (least, none, greedy, rest)
  | _ => none

structure Opened where
  kind : GroupKind
  items : List Form
  branches : List Form
  verbose : Bool

/-- The state of the reader: mode, items and branches of the innermost group (the last one
first), open groups, and the names of the numbered groups met, the last one first. -/
structure State where
  verbose : Bool
  items : List Form
  branches : List Form
  opened : List Opened
  names : List (Option String)

namespace State

def start : State := ⟨false, [], [], [], []⟩

def add (s : State) (item : Form) : State := { s with items := item :: s.items }

def inner (s : State) : Form := Form.ofBranches (Form.ofReversed s.items :: s.branches)

def enter (s : State) (kind : GroupKind) (verbose : Bool) (names : List (Option String)) : State :=
  ⟨verbose, [], [], ⟨kind, s.items, s.branches, s.verbose⟩ :: s.opened, names⟩

def leave? (s : State) : Option State :=
  match s.opened with
  | [] => none
  | o :: opened =>
    some ⟨o.verbose, .group o.kind s.inner :: o.items, o.branches, opened, s.names⟩

def repeatLast? (s : State) (least : Nat) (most : Option Nat) (greedy : Bool) : Option State :=
  match s.items with
  | [] => none
  | item :: items =>
    if item.isRepeatable then some { s with items := .rounds least most greedy item :: items }
    else none

end State

def verboseAfter (verbose : Bool) (changes : FlagChanges) : Bool :=
  match changes.find? (fun change => change.1 == .verbose) with
  | some (_, on) => on
  | none => verbose

def readGroup (s : State) (cs : List Char) : Option (State × List Char) :=
  let named (rest : List Char) : Option (State × List Char) :=
    match readName [] rest with
    | some (name, rest) =>
      if s.names.contains (some name) then none
      else some (s.enter (.numbered (s.names.length + 1)) s.verbose (some name :: s.names), rest)
    | none => none
  match skip s.verbose cs with
  | '?' :: '=' :: _ => none
  | '?' :: '!' :: _ => none
  | '?' :: '<' :: '=' :: _ => none
  | '?' :: '<' :: '!' :: _ => none
  | '?' :: 'P' :: '<' :: rest => named rest
  | '?' :: '<' :: rest => named rest
  | '?' :: rest =>
    match readFlags true false [] rest with
    | some (changes, true, rest) =>
      if changes.isEmpty then none
      else some ({ s.add (.flags changes) with verbose := verboseAfter s.verbose changes }, rest)
    | some (changes, false, rest) =>
      some (s.enter (.plain changes) (verboseAfter s.verbose changes) s.names, rest)
    | none => none
  | rest =>
    some (s.enter (.numbered (s.names.length + 1)) s.verbose (none :: s.names), rest)

def step (s : State) (c : Char) (rest : List Char) : Option (State × List Char) :=
  let repeated (least : Nat) (most : Option Nat) : Option (State × List Char) :=
    let (greedy, rest) := readGreed rest
    (s.repeatLast? least most greedy).map fun s => (s, rest)
  if c = '(' then readGroup s rest
  else if c = ')' then s.leave?.map fun s => (s, rest)
  else if c = '|' then
    some ({ s with items := [], branches := Form.ofReversed s.items :: s.branches }, rest)
  else if c = '[' then (readBracket s.verbose rest).map fun (f, rest) => (s.add f, rest)
  else if c = '?' then repeated 0 (some 1)
  else if c = '*' then repeated 0 none
  else if c = '+' then repeated 1 none
  else if c = '\x7b' then
    match readRounds s.verbose rest with
    | some (least, most, greedy, rest) =>
      (s.repeatLast? least most greedy).map fun s => (s, rest)
    | none => none
  else if c = '\\' then (readEscape s.verbose rest).map fun (f, rest) => (s.add f, rest)
  else if c = '.' then some (s.add .dot, rest)
  else if c = '^' then some (s.add (.assertion .caret), rest)
  else if c = '$' then some (s.add (.assertion .dollar), rest)
  else some (s.add (.literal ⟨c, false⟩), rest)

def read (s : State) (cs : List Char) : Option State :=
  match skip s.verbose cs with
  | [] => some s
  | c :: rest =>
    match step s c rest with
    | some (s, more) => if more.length < cs.length then read s more else none
    | none => none
termination_by cs.length

end Reader

def nestingLimit : Nat := 250

def Form.parse? (cs : List Char) : Option (Form × List (Option String)) :=
  match Reader.read Reader.State.start cs with
  | some s =>
    if s.opened.isEmpty && s.inner.depth none ≤ nestingLimit then
      some (s.inner, s.names.reverse)
    else none
  | none => none

end Regex

end Rehearsal
