import Rehearsal.Regex.Automaton
import Rehearsal.Regex.Property
import Rehearsal.Regex.Reader
import Rehearsal.Regex.Search

/-!
# The meaning of written regular expressions

Flags change what a form means: from the place where they are switched to the end of
the innermost group, or inside the group that carries them. A form without a meaning is
one that names an unknown property, or one that without the Unicode flag could match part
of a character.
-/

namespace Rehearsal

namespace Regex

structure Flags where
  caseless : Bool
  multiline : Bool
  dotAll : Bool
  swapGreed : Bool
  unicode : Bool
  crlf : Bool
  deriving DecidableEq, Repr, Inhabited

namespace Flags

def default : Flags := ⟨false, false, false, false, true, false⟩

/-- Switches one flag. Verbose mode concerns reading only. -/
def switch (f : Flags) (flag : Flag) (on : Bool) : Flags :=
  match flag with
  | .caseless => { f with caseless := on }
  | .multiline => { f with multiline := on }
  | .dotAll => { f with dotAll := on }
  | .swapGreed => { f with swapGreed := on }
  | .unicode => { f with unicode := on }
  | .crlf => { f with crlf := on }
  | .verbose => f

def change (f : Flags) (changes : FlagChanges) : Flags :=
  changes.foldl (fun f c => f.switch c.1 c.2) f

end Flags

/-- Case variants are added where case does not count. -/
def foldCase (f : Flags) (c : CharClass) : CharClass :=
  if f.caseless then .folded (!f.unicode) c else c

def namedSet (f : Flags) : Named → CharClass
  | .digit => .digit (!f.unicode)
  | .space => .space (!f.unicode)
  | .word => .word (!f.unicode)

/-- A set or what is left out by it. Without the Unicode flag the complement of a set would
hold parts of characters. -/
def maybeNegated (f : Flags) (negated : Bool) (c : CharClass) : Option CharClass :=
  if negated then if f.unicode then some (.complement c) else none else some c

/-- A character of a set. Without the Unicode flag it has to be an ASCII character. -/
def setChar (f : Flags) (l : Literal) : Option Char :=
  if f.unicode || l.char.toNat < 128 then some l.char else none

def foldedMaybeNegated (f : Flags) (negated : Bool) (c : CharClass) : Option CharClass :=
  maybeNegated f negated (foldCase f c)

/-- The set of a property. A sign that leaves its value out turns the negation round. -/
def propertySet (f : Flags) (name : String) (negated : Bool) : Option CharClass :=
  if f.unicode then
    match CharClass.ofProperty? name with
    | some (c, leftOut) => foldedMaybeNegated f (negated != leftOut) c
    | none => none
  else none

def SetForm.meaning (f : Flags) : SetForm → Option CharClass
  | literal l => (setChar f l).map .single
  | range lo hi =>
    match setChar f lo, setChar f hi with
    | some lo, some hi => some (.range lo hi)
    | _, _ => none
  | named n negated => maybeNegated f negated (namedSet f n)
  | property name negated => propertySet f name negated
  | ascii name negated => foldedMaybeNegated f negated (CharClass.asciiSet name)
  | nothing => some .none
  | union a b =>
    match meaning f a, meaning f b with
    | some a, some b => some (.union a b)
    | _, _ => none
  | op o a b =>
    match meaning f a, meaning f b with
    | some a, some b =>
      let a := foldCase f a
      let b := foldCase f b
      some (match o with
        | .inter => .inter a b
        | .diff => .diff a b
        | .symmDiff => .symmDiff a b)
    | _, _ => none
  | bracket negated inner =>
    match meaning f inner with
    | some c => foldedMaybeNegated f negated c
    | none => none

def Assertion.meaning (f : Flags) : Assertion → Look
  | caret => if f.multiline then .lineStart f.crlf else .textStart
  | dollar => if f.multiline then .lineEnd f.crlf else .textEnd
  | textStart => .textStart
  | textEnd => .textEnd
  | wordBoundary => .wordBoundary (!f.unicode)
  | notWordBoundary => .notWordBoundary (!f.unicode)
  | wordStart => .wordStart (!f.unicode)
  | wordEnd => .wordEnd (!f.unicode)
  | wordStartHalf => .wordStartHalf (!f.unicode)
  | wordEndHalf => .wordEndHalf (!f.unicode)

def dotSet (f : Flags) : Option CharClass :=
  if f.unicode then
    some (if f.dotAll then .any else .except (if f.crlf then ['\r', '\n'] else ['\n']))
  else none

/-- A literal character. Without the Unicode flag a byte has to be an ASCII character. -/
def literalSet (f : Flags) (l : Literal) : Option CharClass :=
  if !f.unicode && l.isByte && 128 ≤ l.char.toNat then none
  else some (if f.caseless then foldCase f (.single l.char) else .single l.char)

/-- The expression that a form means under the given flags, and the flags after it. -/
def Form.meaning (f : Flags) : Form → Option (Regex × Flags)
  | empty => some (.empty, f)
  | literal l => (literalSet f l).map fun c => (.one c, f)
  | dot => (dotSet f).map fun c => (.one c, f)
  | assertion a => some (.look (a.meaning f), f)
  | named n negated => (maybeNegated f negated (namedSet f n)).map fun c => (.one c, f)
  | property name negated => (propertySet f name negated).map fun c => (.one c, f)
  | bracket negated inner =>
    ((SetForm.bracket negated inner).meaning f).map fun c => (.one c, f)
  | flags changes => some (.empty, f.change changes)
  | rounds least most greedy inner =>
    match meaning f inner with
    | some (r, _) => some (r.repeated least most (greedy != f.swapGreed), f)
    | none => none
  | group kind inner =>
    match kind with
    | .numbered n =>
      match meaning f inner with
      | some (r, _) => some (.group n r, f)
      | none => none
    | .plain changes =>
      match meaning (f.change changes) inner with
      | some (r, _) => some (.enclosed r, f)
      | none => none
  | concat a b =>
    match meaning f a with
    | some (ra, f) =>
      match meaning f b with
      | some (rb, f) => some (.seq ra rb, f)
      | none => none
    | none => none
  | alternation a b =>
    match meaning f a with
    | some (ra, f) =>
      match meaning f b with
      | some (rb, f) => some (.alt ra rb, f)
      | none => none
    | none => none

/-- A regular expression ready to search: the expression and the names of its numbered
groups, of which the first has number one. -/
structure Compiled where
  root : Regex
  names : List (Option String)
  deriving Repr, Inhabited

/-- Reads a regular expression and works out what it means. One whose automata would be too
large is refused. -/
def compile? (text : String) : Option Compiled :=
  match Form.parse? text.toList with
  | some (form, names) =>
    match form.meaning Flags.default with
    | some (root, _) => if root.fits then some ⟨root, names⟩ else none
    | none => none
  | none => none

end Regex

end Rehearsal
