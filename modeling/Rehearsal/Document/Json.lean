import Rehearsal.Document
import Rehearsal.Json

/-!
# Documents as JSON

Every node is a record of its fields; a node that is one of several kinds says which in a
field `type`.
-/

namespace Rehearsal

def Tag.toJson (t : Tag) : Json := .record [("name", .text t.name), ("line", .nat t.line)]

def TagSet.toJson (s : TagSet) : Json := .list (s.tags.map Tag.toJson)

def Table.fields (t : Table) : List (String × Json) :=
  [("headings", .texts t.headings),
    ("rows", .list (t.rows.map fun r =>
      .record [("cells", .texts r.cells), ("line", .nat r.line)])),
    ("line", .nat t.line)]

def Table.toJson (t : Table) : Json := .record t.fields

def KeywordClass.toJson (c : KeywordClass) : Json := .text c.name

def StepArgument.toJson : StepArgument → Json
  | table t => .record (("type", .text "table") :: t.fields)
  | docString d =>
    .record [("type", .text "doc_string"), ("content", .text d.content),
      ("content_type", .optional .text d.contentType), ("line", .nat d.line)]

def Step.toJson (s : Step) : Json :=
  .record [("keyword", .text s.keyword), ("keyword_class", s.keywordClass.toJson),
    ("step_type", .optional KeywordClass.toJson s.stepType), ("text", .text s.text),
    ("argument", .optional StepArgument.toJson s.argument), ("line", .nat s.line)]

def Background.toJson (b : Background) : Json :=
  .record [("keyword", .text b.keyword), ("name", .text b.name), ("line", .nat b.line),
    ("steps", .list (b.steps.map Step.toJson))]

def RowOrigin.toJson (o : RowOrigin) : Json :=
  .record [("outline_line", .nat o.outlineLine), ("examples_index", .nat o.block),
    ("row_index", .nat o.row)]

def Scenario.fields (s : Scenario) : List (String × Json) :=
  [("keyword", .text s.keyword), ("name", .text s.name), ("tags", s.tags.toJson),
    ("line", .nat s.line), ("steps", .list (s.steps.map Step.toJson)),
    ("origin", .optional RowOrigin.toJson s.origin)]

def Scenario.toJson (s : Scenario) : Json := .record s.fields

def Examples.toJson (e : Examples) : Json :=
  .record [("keyword", .text e.keyword), ("name", .text e.name), ("tags", e.tags.toJson),
    ("line", .nat e.line), ("table", e.table.toJson)]

def Outline.fields (o : Outline) : List (String × Json) :=
  [("keyword", .text o.keyword), ("name", .text o.name), ("tags", o.tags.toJson),
    ("line", .nat o.line), ("steps", .list (o.steps.map Step.toJson)),
    ("examples", .list (o.examples.map Examples.toJson))]

def Definition.toJson : Definition → Json
  | scenario s => .record (("type", .text "scenario") :: s.fields)
  | outline o => .record (("type", .text "outline") :: o.fields)

def FeatureChild.toJson : FeatureChild → Json
  | definition d => d.toJson
  | rule r =>
    .record [("type", .text "rule"), ("keyword", .text r.keyword), ("name", .text r.name),
      ("tags", r.tags.toJson), ("line", .nat r.line),
      ("background", .optional Background.toJson r.background),
      ("children", .list (r.children.map Definition.toJson))]

def Feature.toJson (f : Feature) : Json :=
  .record [("keyword", .text f.keyword), ("name", .text f.name), ("path", .text f.path),
    ("language", .text f.language), ("tags", f.tags.toJson), ("line", .nat f.line),
    ("background", .optional Background.toJson f.background),
    ("children", .list (f.children.map FeatureChild.toJson))]

def Suite.toJson (s : Suite) : Json := .record [("features", .list (s.features.map Feature.toJson))]

end Rehearsal
