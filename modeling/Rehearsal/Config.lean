import Rehearsal.Config.Toml
import Rehearsal.Plan

/-!
# Configuration

A configuration is a table of settings, each of which may be missing. `RunConfig.ofSetting?`
checks its shape, `RunConfig.compile` turns it into the options of a run.
-/

namespace Rehearsal

structure RetryConfig where
  maxAttempts : Nat
  tags : List String
  deriving DecidableEq, Repr, Inhabited

structure RunConfig where
  tags : List String
  names : List String
  locations : List String
  continueAfterFailure : Option String
  stopOnFailure : Bool
  dryRun : Bool
  jobs : Nat
  retry : Option RetryConfig
  rerunFile : Option String
  jsonReport : Option String
  language : String
  deriving DecidableEq, Repr, Inhabited

namespace Setting

def text? : Setting → Option String
  | text s => some s
  | _ => none

def texts? : Setting → Option (List String)
  | list items => items.mapM text?
  | _ => none

def truth? : Setting → Option Bool
  | truth b => some b
  | _ => none

def nat? (r : Number.IntRange) : Setting → Option Nat
  | int n => (r.narrow? n).map Int.toNat
  | _ => none

def optional? (read : Setting → Option α) : Setting → Option (Option α)
  | missing => some none
  | s => (read s).map some

def areDistinct : List (String × Setting) → Bool
  | [] => true
  | (k, _) :: rest => !(rest.any fun e => e.1 == k) && areDistinct rest

end Setting

namespace RetryConfig

def readEntry? (entry : String × Setting) (c : RetryConfig) : Option RetryConfig :=
  let (key, s) := entry
  if key = "max_attempts" then
    (s.nat? .unsigned32).map fun n => { c with maxAttempts := n }
  else if key = "tags" then s.texts?.map fun ts => { c with tags := ts }
  else none

/-- Reads a table, in which the number of attempts may not be missing, or a list of the
number of attempts and the tags. Where `surplus` is set, whatever a list holds after them
does not count. -/
def ofSetting? (surplus : Bool) : Setting → Option RetryConfig
  | .table entries =>
    if (entries.any fun e => e.1 == "max_attempts") && Setting.areDistinct entries then
      entries.foldlM (fun c e => readEntry? e c) ⟨0, []⟩
    else none
  | .list [attempts] => (attempts.nat? .unsigned32).map fun n => ⟨n, []⟩
  | .list (attempts :: tags :: more) =>
    match attempts.nat? .unsigned32, tags.texts? with
    | some n, some ts => if surplus || more.isEmpty then some ⟨n, ts⟩ else none
    | _, _ => none
  | _ => none

end RetryConfig

inductive ConfigError where
  | tags (e : TagExpression.Error)
  | namePattern (pattern : String)
  | location (e : NoLocation)
  | zeroAttempts
  deriving DecidableEq, Repr, Inhabited

def ConfigError.message : ConfigError → String
  | tags e => e.message
  | namePattern pattern => "invalid scenario name pattern `" ++ pattern ++ "`"
  | location e => e.message
  | zeroAttempts => "retry.max_attempts must be at least 1"

namespace RunConfig

/-- The configuration in which every setting is missing. -/
def default : RunConfig := ⟨[], [], [], none, false, false, 1, none, none, none, "en"⟩

/-- Reads an entry. `surplus` tells whether a list of retry settings may hold more than them. -/
def readEntry? (surplus : Bool) (entry : String × Setting) (c : RunConfig) : Option RunConfig :=
  let (key, s) := entry
  if key = "tags" then s.texts?.map fun x => { c with tags := x }
  else if key = "names" then s.texts?.map fun x => { c with names := x }
  else if key = "include_locations" then s.texts?.map fun x => { c with locations := x }
  else if key = "continue_after_failed_step" then
    (s.optional? Setting.text?).map fun x => { c with continueAfterFailure := x }
  else if key = "stop_on_failure" then s.truth?.map fun x => { c with stopOnFailure := x }
  else if key = "dry_run" then s.truth?.map fun x => { c with dryRun := x }
  else if key = "jobs" then (s.nat? .unsigned64).map fun x => { c with jobs := x }
  else if key = "retry" then
    (s.optional? (RetryConfig.ofSetting? surplus)).map fun x => { c with retry := x }
  else if key = "rerun_file" then
    (s.optional? Setting.text?).map fun x => { c with rerunFile := x }
  else if key = "json_report" then
    (s.optional? Setting.text?).map fun x => { c with jsonReport := x }
  else if key = "language" then s.text?.map fun x => { c with language := x }
  else none

def keys : List String :=
  ["tags", "names", "include_locations", "continue_after_failed_step", "stop_on_failure",
    "dry_run", "jobs", "retry", "rerun_file", "json_report", "language"]

/-- Reads a configuration from a table: every key has to be known, and of the right kind. A
list holds the values of the first keys. `surplus` tells whether a list may hold more values
than there are keys. -/
def ofSetting? (surplus : Bool) : Setting → Option RunConfig
  | .table entries =>
    if Setting.areDistinct entries then
      entries.foldlM (fun c e => readEntry? surplus e c) default
    else none
  | .list items =>
    if surplus || items.length ≤ keys.length then
      (keys.zip items).foldlM (fun c e => readEntry? surplus e c) default
    else none
  | _ => none

/-- Reads a configuration in the TOML format, where a list may hold surplus values. -/
def ofToml? (text : String) : Option RunConfig := (Toml.parse? text).bind (ofSetting? true)

def compileNames : List String → Except ConfigError (List NamePattern)
  | [] => .ok []
  | p :: rest =>
    match Regex.compile? p with
    | some r =>
      match compileNames rest with
      | .ok ps => .ok (⟨p, r⟩ :: ps)
      | .error e => .error e
    | none => .error (.namePattern p)

def compileLocations : List String → Except ConfigError (List Location)
  | [] => .ok []
  | t :: rest =>
    match Location.parseAll t with
    | .ok ls =>
      match compileLocations rest with
      | .ok more => .ok (ls ++ more)
      | .error e => .error e
    | .error e => .error (.location e)

def compileTags (texts : List String) : Except ConfigError TagFilter :=
  match TagFilter.parse texts with
  | .ok f => .ok f
  | .error e => .error (.tags e)

/-- Compiles the number of attempts, of which there has to be one at least. -/
def compileRetry : Option RetryConfig → Except ConfigError (Option RetryPolicy)
  | none => .ok none
  | some r =>
    if r.maxAttempts = 0 then .error .zeroAttempts
    else
      match compileTags r.tags with
      | .ok f => .ok (some ⟨r.maxAttempts, f⟩)
      | .error e => .error e

def compileExpression : Option String → Except ConfigError (Option TagExpression)
  | none => .ok none
  | some text =>
    match TagExpression.parse text with
    | .ok e => .ok (some e)
    | .error e => .error (.tags e)

/-- The options that a configuration stands for, on a machine with `processors` processors.
The first fault is reported: of the names, the locations, the number of attempts, the tags
and the steps after a failure, in this order. -/
def compile (processors : Nat) (c : RunConfig) : Except ConfigError RunOptions := do
  let names ← compileNames c.names
  let locations ← compileLocations c.locations
  let retry ← compileRetry c.retry
  let tags ← compileTags c.tags
  let continueAfterFailure ← compileExpression c.continueAfterFailure
  return ⟨⟨tags, names, locations⟩, continueAfterFailure, c.stopOnFailure, c.dryRun,
    if c.jobs = 0 then max 1 processors else c.jobs, retry⟩

end RunConfig

end Rehearsal
