import Rehearsal.Report.Summary
import Rehearsal.Text.Lines

/-!
# Console

What is written to the console after a run: the scenarios that failed and the summary, the
details of the failures, and code for the undefined steps. It may be coloured with escape
sequences.
-/

namespace Rehearsal

inductive Colors where
  | off
  | on
  deriving DecidableEq, Repr, Inhabited

inductive Style where
  | plain
  | bold
  | red
  | boldRed
  | green
  | yellow
  | cyan
  deriving DecidableEq, Repr, Inhabited

namespace Style

def codes? : Style → Option String
  | plain => none
  | bold => some "1"
  | red => some "31"
  | boldRed => some "1;31"
  | green => some "32"
  | yellow => some "33"
  | cyan => some "36"

def reset : List Char := "\x1b[0m".toList

/-- Puts `start` after every sequence in a text that ends a style. -/
def renew (start : List Char) : List Char → List Char
  | [] => []
  | c :: cs =>
    if c = '\x1b' && cs.take 3 == "[0m".toList then
      c :: (cs.take 3 ++ start ++ renew start (cs.drop 3))
    else c :: renew start cs
termination_by cs => cs.length
decreasing_by
  · simp only [List.length_drop, List.length_cons]
    omega
  · simp only [List.length_cons]
    omega

/-- A text in a style. -/
def paint (style : Style) (colors : Colors) (text : String) : String :=
  match colors, style.codes? with
  | .on, some codes =>
    let start := "\x1b[" ++ codes ++ "m"
    start ++ String.ofList (renew start.toList text.toList) ++ String.ofList reset
  | _, _ => text

end Style

def unlines (ls : List String) : String := String.join (ls.map (· ++ "\n"))

namespace RunResult

def failingLine (colors : Colors) (s : ScenarioResult) : String :=
  "  " ++ Style.cyan.paint colors s.id.render ++ "  " ++ s.name

def summaryStyle (r : RunResult) : Style :=
  if r.cancelled then .yellow else if r.isSuccess then .green else .plain

/-- The scenarios that failed, and the summary. -/
def consoleSummary (r : RunResult) (colors : Colors) (locale : Locale) : List String :=
  (if r.failing.isEmpty then []
    else ["", Style.boldRed.paint colors locale.failingBanner] ++
      r.failing.map (failingLine colors)) ++
    [""] ++ (r.summaryLines locale).map (r.summaryStyle.paint colors) ++
    match r.message with
    | some m => [Style.boldRed.paint colors locale.suiteHookError ++ " " ++ m]
    | none => []

def rule : String := String.ofList (List.replicate 80 '-')

def capturedLines (colors : Colors) (header text : String) : List String :=
  if text.isEmpty then []
  else ["", "  --- " ++ Style.yellow.paint colors header ++ " ---"] ++
    (Text.lines text).map ("    " ++ ·)

def stepLines (colors : Colors) (s : StepResult) : List String :=
  ["  " ++ Style.bold.paint colors s.keyword ++ " " ++ s.text ++ " (line " ++ toString s.line ++
    ")"] ++
    (match s.message with
      | some m => (Text.lines m).map fun line => "    " ++ Style.red.paint colors line
      | none => []) ++
    capturedLines colors "stdout" s.captured.stdout ++
    capturedLines colors "stderr" s.captured.stderr ++
    capturedLines colors "log" s.captured.log

def detailLines (colors : Colors) (locale : Locale) (number total : Nat) (s : ScenarioResult) :
    List String :=
  ["[" ++ toString number ++ "/" ++ toString total ++ "] " ++
    Style.red.paint colors (locale.status s.status) ++ " '" ++ Style.cyan.paint colors s.name ++
    "' (" ++ s.id.render ++ ")"] ++
    (if 1 < s.attempts then ["  " ++ Style.yellow.paint colors (locale.attempts s.attempts)]
      else []) ++
    (match s.message with
      | some m => ["  " ++ m]
      | none => []) ++
    (match s.failedStep? with
      | some step => stepLines colors step
      | none => []) ++
    [rule]

def consoleDetails (r : RunResult) (colors : Colors) (locale : Locale) : List String :=
  let failing := r.failing
  if failing.isEmpty then []
  else ["", Style.boldRed.paint colors locale.detailsBanner, rule] ++
    (failing.zipIdx 1).flatMap fun (s, number) =>
      detailLines colors locale number failing.length s

def renderSnippets (r : RunResult) (locale : Locale) : Option String :=
  if r.undefined.isEmpty then none
  else some (locale.snippetsBanner ++ "\n\n" ++ String.join (r.undefined.map fun u =>
    "// " ++ u.path ++ ":" ++ toString u.line ++ "\n" ++ u.snippet ++ "\n\n"))

def consoleSnippets (r : RunResult) (colors : Colors) (locale : Locale) : List String :=
  match r.renderSnippets locale with
  | some text => ["", Style.yellow.paint colors text]
  | none => []

def console (r : RunResult) (colors : Colors) (locale : Locale) : String :=
  unlines (r.consoleSummary colors locale ++ r.consoleDetails colors locale ++
    r.consoleSnippets colors locale)

end RunResult

end Rehearsal
