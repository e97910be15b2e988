import Rehearsal.Document
import Rehearsal.Document.Template

/-!
# Outlines

An outline stands for one scenario per row of its examples. The holes in its name, in the
texts of its steps and in what stands below them are filled with the cells of the row.
-/

namespace Rehearsal

def Table.fill (values : String → Option String) (t : Table) : Table :=
  ⟨t.headings.map (Template.fill values),
    t.rows.map fun row => ⟨row.cells.map (Template.fill values), row.line⟩, t.line⟩

def StepArgument.fill (values : String → Option String) : StepArgument → StepArgument
  | table t => table (t.fill values)
  | docString d => docString { d with content := Template.fill values d.content }

def Step.fill (values : String → Option String) (s : Step) : Step :=
  { s with
    text := Template.fill values s.text
    argument := s.argument.map (StepArgument.fill values) }

namespace Outline

/-- The name of the scenario of a row: blocks and rows are counted from one, and the name of
the block follows if it has one. -/
def rowName (filled : String) (block row : Nat) (blockName : String) : String :=
  filled ++ " -- @" ++ toString (block + 1) ++ "." ++ toString (row + 1) ++
    (if blockName = "" then "" else " " ++ blockName)

def scenarioOf (o : Outline) (e : Examples) (block : Nat) (row : TableRow) (index : Nat) :
    Scenario :=
  let values := fun name => Table.lastPaired? name (e.table.pairs row)
  ⟨o.keyword, rowName (Template.fill values o.name) block index e.name,
    .effective [o.tags, e.tags], row.line, o.steps.map (Step.fill values),
    some ⟨o.line, block, index⟩⟩

def scenariosOf (o : Outline) (e : Examples) (block : Nat) : List Scenario :=
  e.table.rows.mapIdx fun index row => o.scenarioOf e block row index

/-- The scenarios of an outline, block by block and row by row. -/
def expand (o : Outline) : List Scenario :=
  (o.examples.mapIdx fun block e => o.scenariosOf e block).flatten

end Outline

def Definition.scenarios : Definition → List Scenario
  | scenario s => [s]
  | outline o => o.expand

end Rehearsal
