import Rehearsal.Config
import Rehearsal.Json

/-!
# Configurations as JSON

A configuration is a record of its settings; one that is missing is written as null. Read
back, it may leave settings out.
-/

namespace Rehearsal

def RetryConfig.toJson (r : RetryConfig) : Json :=
  .record [("max_attempts", .nat r.maxAttempts), ("tags", .texts r.tags)]

def RunConfig.toJson (c : RunConfig) : Json :=
  .record [("tags", .texts c.tags), ("names", .texts c.names),
    ("include_locations", .texts c.locations),
    ("continue_after_failed_step", .optional .text c.continueAfterFailure),
    ("stop_on_failure", .bool c.stopOnFailure), ("dry_run", .bool c.dryRun),
    ("jobs", .nat c.jobs), ("retry", .optional RetryConfig.toJson c.retry),
    ("rerun_file", .optional .text c.rerunFile), ("json_report", .optional .text c.jsonReport),
    ("language", .text c.language)]

mutual

def Setting.ofJson : Json → Setting
  | .null => .missing
  | .bool b => .truth b
  | .int n => .int n
  | .float _ => .fraction
  | .text s => .text s
  | .list items => .list (Setting.ofItems items)
  | .record fields => .table (Setting.ofFields fields)

def Setting.ofItems : List Json → List Setting
  | [] => []
  | j :: rest => Setting.ofJson j :: Setting.ofItems rest

def Setting.ofFields : List (String × Json) → List (String × Setting)
  | [] => []
  | (k, j) :: rest => (k, Setting.ofJson j) :: Setting.ofFields rest

end

/-- Reads a configuration from a JSON value, where a list holds no surplus values. -/
def RunConfig.ofJson? (j : Json) : Option RunConfig := ofSetting? false (.ofJson j)

end Rehearsal
