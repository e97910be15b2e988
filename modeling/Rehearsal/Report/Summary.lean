import Rehearsal.Report.Locale
import Rehearsal.Result.Counts

/-!
# Summaries

The text below a run: a line of counts for every level, how long the run has taken, and
whether it was stopped.
-/

namespace Rehearsal

namespace Duration

/-- A decimal number of three places, given in thousandths. -/
def thousandths (n : Nat) : String :=
  let places := toString (n % 1000)
  toString (n / 1000) ++ "." ++ String.ofList (List.replicate (3 - places.length) '0') ++ places

/-- The quotient rounded to the nearest whole number, a half to the even one. -/
def roundDiv (n d : Nat) : Nat :=
  if 2 * (n % d) > d || (2 * (n % d) == d && n / d % 2 == 1) then n / d + 1 else n / d

/-- A span in the largest unit that it reaches, with three places. -/
def render (d : Duration) : String :=
  let n := d.nanoseconds
  if 1000000000 ≤ n then thousandths (roundDiv n 1000000) ++ "s"
  else if 1000000 ≤ n then thousandths (roundDiv n 1000) ++ "ms"
  else if 1000 ≤ n then thousandths n ++ "µs"
  else thousandths (1000 * n) ++ "ns"

end Duration

/-- A line of counts. Some statuses are named only where there are any. -/
def StatusCounts.line (level : String) (locale : Locale) (c : StatusCounts) : String :=
  let rest := [Status.error, Status.undefined, Status.untested].filter fun s => 0 < c.get s
  locale.counts level c.passed c.failed c.skipped ++
    String.join (rest.map fun s => ", " ++ toString (c.get s) ++ " " ++ locale.status s)

namespace RunResult

/-- The lines of counts of a run; those of rules are left out where there are none. -/
def countLines (r : RunResult) (locale : Locale) : List String :=
  let s := r.summary
  [s.features.line locale.features locale] ++
    (if 0 < s.rules.total then [s.rules.line locale.rules locale] else []) ++
    [s.scenarios.line locale.scenarios locale, s.steps.line locale.steps locale]

def summaryLines (r : RunResult) (locale : Locale) : List String :=
  r.countLines locale ++ [locale.duration r.duration.render] ++
    if r.cancelled then [locale.stopped] else []

def renderSummary (r : RunResult) (locale : Locale) : String :=
  "\n".intercalate (r.summaryLines locale)

end RunResult

end Rehearsal
