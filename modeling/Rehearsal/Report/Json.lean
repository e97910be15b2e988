import Rehearsal.Json
import Rehearsal.Result.Counts

/-!
# Results as JSON

Every node is a record of its fields. The place of a definition in its registry is left out
of a match.
-/

namespace Rehearsal

def Duration.toJson (d : Duration) : Json :=
  .record [("secs", .nat (d.nanoseconds / 1000000000)),
    ("nanos", .nat (d.nanoseconds % 1000000000))]

def Status.toJson (s : Status) : Json := .text s.name

def StatusCounts.toJson (c : StatusCounts) : Json :=
  .record (Status.all.map fun s => (s.name, .nat (c.get s)))

def Summary.fields (s : Summary) : List (String × Json) :=
  [("features", s.features.toJson), ("rules", s.rules.toJson),
    ("scenarios", s.scenarios.toJson), ("steps", s.steps.toJson)]

def Captured.toJson (c : Captured) : Json :=
  .record [("stdout", .text c.stdout), ("stderr", .text c.stderr), ("log", .text c.log)]

def Value.toJson : Value → Json
  | int n => .int n
  | float x => .float x
  | text s => .text s
  | truth b => .bool b

def Argument.toJson (a : Argument) : Json :=
  .record [("name", .optional .text a.name), ("value", a.value.toJson), ("raw", .text a.raw),
    ("start", .nat a.start), ("end", .nat a.stop)]

def StepMatch.toJson (m : StepMatch) : Json :=
  .record [("pattern", .text m.pattern),
    ("location", .record [("file", .text m.location.file), ("line", .nat m.location.line)]),
    ("arguments", .list (m.arguments.map Argument.toJson))]

def ScenarioId.toJson (id : ScenarioId) : Json :=
  .record [("path", .text id.path), ("line", .nat id.line), ("name", .text id.name)]

def StepResult.toJson (s : StepResult) : Json :=
  .record [("keyword", .text s.keyword),
    ("step_type", .optional (fun (c : KeywordClass) => .text c.name) s.stepType),
    ("text", .text s.text), ("line", .nat s.line), ("status", s.status.toJson),
    ("duration", s.duration.toJson), ("error_message", .optional .text s.message),
    ("match", .optional StepMatch.toJson s.matched), ("captured", s.captured.toJson),
    ("background", .bool s.background)]

def ScenarioResult.fields (s : ScenarioResult) : List (String × Json) :=
  [("id", s.id.toJson), ("keyword", .text s.keyword), ("name", .text s.name),
    ("tags", .texts s.tags), ("status", s.status.toJson), ("duration", s.duration.toJson),
    ("error_message", .optional .text s.message), ("captured", s.captured.toJson),
    ("steps", .list (s.steps.map StepResult.toJson)), ("attempts", .nat s.attempts)]

def ScenarioResult.toJson (s : ScenarioResult) : Json := .record s.fields

def RuleResult.fields (r : RuleResult) : List (String × Json) :=
  [("keyword", .text r.keyword), ("name", .text r.name), ("tags", .texts r.tags),
    ("line", .nat r.line), ("status", r.status.toJson), ("duration", r.duration.toJson),
    ("error_message", .optional .text r.message), ("captured", r.captured.toJson),
    ("scenarios", .list (r.scenarios.map ScenarioResult.toJson))]

def ChildResult.toJson : ChildResult → Json
  | scenario s => .record (("type", .text "scenario") :: s.fields)
  | rule r => .record (("type", .text "rule") :: r.fields)

def FeatureResult.toJson (f : FeatureResult) : Json :=
  .record [("keyword", .text f.keyword), ("name", .text f.name), ("path", .text f.path),
    ("tags", .texts f.tags), ("line", .nat f.line), ("status", f.status.toJson),
    ("duration", f.duration.toJson), ("error_message", .optional .text f.message),
    ("captured", f.captured.toJson), ("background", .list (f.background.map StepResult.toJson)),
    ("children", .list (f.children.map ChildResult.toJson))]

def UndefinedStep.toJson (u : UndefinedStep) : Json :=
  .record [("path", .text u.path), ("line", .nat u.line), ("keyword", .text u.keyword),
    ("text", .text u.text), ("snippet", .text u.snippet)]

namespace RunResult

def toJson (r : RunResult) : Json :=
  .record [("started_at", .text r.startedAt), ("duration", r.duration.toJson),
    ("status", r.status.toJson), ("features", .list (r.features.map FeatureResult.toJson)),
    ("error_message", .optional .text r.message), ("captured", r.captured.toJson),
    ("rerun", .list (r.rerun.map ScenarioId.toJson)),
    ("undefined", .list (r.undefined.map UndefinedStep.toJson)), ("cancelled", .bool r.cancelled)]

def renderJson (r : RunResult) : String := r.toJson.pretty

end RunResult

end Rehearsal
