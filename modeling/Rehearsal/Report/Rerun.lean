import Rehearsal.Result
import Rehearsal.Text.Lines

/-!
# Rerun files

A rerun file lists the scenarios that failed: after a header, one line for every document,
with the lines of its scenarios. Read back, it is a list of locations that pick these
scenarios.
-/

namespace Rehearsal

namespace Rerun

/-- Adds a line to the lines of a document, behind those of the documents before it. -/
def addLine (path : String) (line : Nat) :
    List (String × List Nat) → List (String × List Nat)
  | [] => [(path, [line])]
  | (p, ls) :: rest =>
    if p = path then (p, ls ++ [line]) :: rest else (p, ls) :: addLine path line rest

/-- The lines of scenarios by document, in the order in which the documents come up. -/
def byDocument (ids : List ScenarioId) : List (String × List Nat) :=
  ids.foldl (fun groups id => addLine id.path id.line groups) []

def documentLine (group : String × List Nat) : String :=
  group.1 ++ String.join (group.2.map fun line => ":" ++ toString line) ++ "\n"

/-- The rerun file of a run; it is empty if nothing failed. -/
def render (r : RunResult) : String :=
  if r.rerun.isEmpty then ""
  else
    let ids := (r.scenarios.map (·.id)).filter fun id => r.rerun.contains id
    "# -- RERUN: " ++ toString r.rerun.length ++ " failing scenarios during last test run.\n" ++
      String.join ((byDocument ids).map documentLine)

/-- Is a trimmed line empty or a comment? -/
def isComment (line : String) : Bool :=
  match line.toList with
  | [] => true
  | c :: _ => c == '#'

def parseLines : List String → Except NoLocation (List Location)
  | [] => .ok []
  | line :: rest =>
    if isComment line then parseLines rest
    else
      match Location.parseAll line with
      | .error e => .error e
      | .ok locations =>
        match parseLines rest with
        | .error e => .error e
        | .ok more => .ok (locations ++ more)

def parse (text : String) : Except NoLocation (List Location) :=
  parseLines ((Text.lines text).map Text.trim)

end Rerun

end Rehearsal
