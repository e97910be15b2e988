import Rehearsal.Pattern.Suggestion
import Rehearsal.Result

/-!
# Undefined steps

The steps of a run that nothing matched are listed, each place and text once, with code to
start their definitions from.
-/

namespace Rehearsal

def registrar : Option KeywordClass → String
  | some .context => "given"
  | some .action => "when"
  | some .outcome => "then"
  | _ => "step"

def StepResult.snippet (s : StepResult) : String :=
  "registry." ++ registrar s.stepType ++ "(r#\"" ++ Suggestion.ofText s.text ++
    "\"#, |context, step| \x7b\n    anyhow::bail!(r#\"step not implemented: " ++ s.keyword ++ " " ++
    s.text ++ "\"#)\n\x7d)?;"

namespace UndefinedStep

def ofStep (path : String) (s : StepResult) : UndefinedStep :=
  ⟨path, s.line, s.keyword, s.text, s.snippet⟩

/-- Do two entries have the same place and text? -/
def isSame (a b : UndefinedStep) : Bool := a.path == b.path && a.line == b.line && a.text == b.text

/-- The first entries of each place and text. -/
def firsts : List UndefinedStep → List UndefinedStep
  | [] => []
  | u :: rest => u :: (firsts rest).filter fun v => !u.isSame v

def ofFeature (f : FeatureResult) : List UndefinedStep :=
  ((f.scenarios.flatMap (·.steps)).filter (·.status == .undefined)).map (ofStep f.path)

def collect (fs : List FeatureResult) : List UndefinedStep := firsts (fs.flatMap ofFeature)

end UndefinedStep

end Rehearsal
