import Rehearsal.Config.Json
import Rehearsal.Document.Json
import Rehearsal.Report.Console
import Rehearsal.Report.Store
import Rehearsal.Run
import Rehearsal.Run.Crew
import Rehearsal.Proofs.Course
import Rehearsal.Proofs.Passage
import Rehearsal.Proofs.Account
import Rehearsal.Proofs.Account.Scenario
import Rehearsal.Proofs.Account.Run
import Rehearsal.Proofs.Brackets
import Rehearsal.Proofs.Failures
import Rehearsal.Proofs.Halting
import Rehearsal.Proofs.RollUp
import Rehearsal.Proofs.Nesting
import Rehearsal.Proofs.Place
import Rehearsal.Proofs.Listing
import Rehearsal.Proofs.Grouping
import Rehearsal.Proofs.Crew
import Rehearsal.Proofs.Account.Crew
import Rehearsal.Proofs.Selection
import Rehearsal.Proofs.Selection.Run
import Rehearsal.Proofs.Numeral
import Rehearsal.Proofs.Rerun.Text
import Rehearsal.Proofs.Location
import Rehearsal.Proofs.Rerun.File
import Rehearsal.Proofs.Rerun
import Rehearsal.Proofs.Parallel.Ground
import Rehearsal.Proofs.Parallel.Discreet
import Rehearsal.Proofs.Parallel.Orderly
import Rehearsal.Proofs.Parallel.Solo
import Rehearsal.Proofs.Parallel
import Rehearsal.Proofs.Conduct
import Rehearsal.Proofs.Moves
import Rehearsal.Proofs.Line
import Rehearsal.Proofs.Glance
import Rehearsal.Proofs.Thread
import Rehearsal.Proofs.Isolation
import Rehearsal.Proofs.Ownership
import Rehearsal.Proofs.Mirror
import Rehearsal.Proofs.Parallel.Safety
import Rehearsal.Proofs.Fatal
import Rehearsal.Proofs.WellFormed
import Rehearsal.Proofs.Account.Moves
import Rehearsal.Proofs.DryRun
import Rehearsal.Proofs.Log
import Rehearsal.Proofs.Capture.Leaving
import Rehearsal.Proofs.Capture
import Rehearsal.Proofs.WellFormed.Filling
import Rehearsal.Proofs.WellFormed.Planning
import Rehearsal.Proofs.Expansion
import Rehearsal.Proofs.Grammar.Tokens
import Rehearsal.Proofs.Grammar
import Rehearsal.Proofs.Grammar.Printing
import Rehearsal.Proofs.Grammar.Groups
import Rehearsal.Proofs.Grammar.Balance
import Rehearsal.Proofs.Grammar.Blame
import Rehearsal.Proofs.Search.Stacks
import Rehearsal.Proofs.Search
import Rehearsal.Proofs.Pattern.Language
import Rehearsal.Proofs.Automaton
import Rehearsal.Proofs.Automaton.Digits
import Rehearsal.Proofs.Pattern.Weight
import Rehearsal.Proofs.Pattern.Reading
import Rehearsal.Proofs.Pattern.Pieces
import Rehearsal.Proofs.Pattern.Source
import Rehearsal.Proofs.Pattern
import Rehearsal.Proofs.Pattern.Whole
import Rehearsal.Proofs.Pattern.Size
import Rehearsal.Proofs.Pattern.Scanning
import Rehearsal.Proofs.Pattern.Conversion
import Rehearsal.Proofs.Matching
import Rehearsal.Proofs.Suggestion.Abstraction
import Rehearsal.Proofs.Suggestion
import Rehearsal.Proofs.Binding
import Rehearsal.Proofs.Trail
import Rehearsal.Proofs.Retry
import Rehearsal.Proofs.Cut
import Rehearsal.Proofs.FirstFailure
import Rehearsal.Proofs.Untested
import Rehearsal.Proofs.Counts
import Rehearsal.Proofs.Readings
import Rehearsal.Proofs.Resolution
import Rehearsal.Proofs.Undefined
