import Rehearsal.Document
import Rehearsal.Number.Whole
import Rehearsal.Text.Blank
import Rehearsal.Text.Split

/-!
# Locations

A location picks scenarios by the path of their document and, if it has a line, by their
line or by the line of the outline they come from. In a written location the numbers at the
end, cut off by colons, are lines; what stands before them is the path, which may hold
colons itself.
-/

namespace Rehearsal

structure Location where
  path : String
  line : Option Nat
  deriving DecidableEq, Repr, Inhabited

structure NoLocation where
  text : String
  deriving DecidableEq, Repr, Inhabited

def NoLocation.message (e : NoLocation) : String :=
  "invalid location `" ++ e.text ++ "`; expected `path:line`"

namespace Location

def render (l : Location) : String :=
  match l.line with
  | some line => l.path ++ ":" ++ toString line
  | none => l.path

def readLine? (part : List Char) : Option Nat :=
  (Number.readInt? .unsigned32 part).map Int.toNat

/-- Takes the lines off the end of parts, given from the last to the first; the first part
stays. `lines` are the lines after the parts. -/
def takeLines (lines : List Nat) : List (List Char) → List (List Char) × List Nat
  | last :: before :: rest =>
    match readLine? last with
    | some n => takeLines (n :: lines) (before :: rest)
    | none => (last :: before :: rest, lines)
  | parts => (parts, lines)

/-- The locations that a trimmed text stands for. -/
def parseTrimmed? (cs : List Char) : Option (List Location) :=
  if cs.isEmpty then none
  else
    let (parts, lines) := takeLines [] (Text.splitOn ':' cs).reverse
    let path := Text.joinWith ':' parts.reverse
    if path.isEmpty then none
    else if lines.isEmpty then some [⟨String.ofList path, none⟩]
    else some (lines.map fun line => ⟨String.ofList path, some line⟩)

/-- The locations that a text stands for: one for each of its lines, or one without a
line. -/
def parseAll (text : String) : Except NoLocation (List Location) :=
  match parseTrimmed? (Text.trimChars text.toList) with
  | some ls => .ok ls
  | none => .error ⟨Text.trim text⟩

def parse (text : String) : Except NoLocation Location :=
  match parseAll text with
  | .ok [l] => .ok l
  | .ok _ => .error ⟨text⟩
  | .error e => .error e

/-- A path without one leading `./`. -/
def plainPath (path : String) : List Char :=
  match path.toList with
  | '.' :: '/' :: rest => rest
  | cs => cs

def picks (l : Location) (path : String) (s : Scenario) : Bool :=
  plainPath l.path == plainPath path &&
    match l.line with
    | none => true
    | some line =>
      s.line == line ||
        match s.origin with
        | some o => o.outlineLine == line
        | none => false

end Location

end Rehearsal
