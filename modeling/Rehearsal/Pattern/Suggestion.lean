import Rehearsal.Text.Letter
import Rehearsal.Text.Offset

/-!
# Suggested patterns

For a step that nothing matches a pattern is suggested: the step text with its braces
doubled, in which every text in double quotes becomes a placeholder in quotes and every
number that stands alone becomes a placeholder for numbers.

A number stands alone where no word character touches it: before it, or before its sign,
there is a boundary between a word character and another one or the start of the text, and
after it no word character follows. A point belongs to it only together with digits that
stand alone too.
-/

namespace Rehearsal

namespace Suggestion

def doubleBraces : List Char → List Char
  | [] => []
  | c :: cs =>
    if c = '\x7b' || c = '\x7d' then c :: c :: doubleBraces cs else c :: doubleBraces cs

def isWordAt : Option Char → Bool
  | some c => Text.isWord c
  | none => false

def dropSign : List Char → List Char
  | '-' :: cs => cs
  | '+' :: cs => cs
  | cs => cs

/-- Reads a number that stands alone, after the character `before`: does it have a point,
and what follows it? -/
def number? (before : Option Char) (cs : List Char) : Option (Bool × List Char) :=
  if before.isSome && isWordAt before == isWordAt cs.head? then none
  else
    let digits := (dropSign cs).takeWhile Text.isDecimalDigit
    let rest := (dropSign cs).dropWhile Text.isDecimalDigit
    let fraction : Option (List Char) := match rest with
      | '.' :: more =>
        let after := more.dropWhile Text.isDecimalDigit
        if (more.takeWhile Text.isDecimalDigit).isEmpty || isWordAt after.head? then none
        else some after
      | _ => none
    if digits.isEmpty then none
    else
      match fraction with
      | some after => some (true, after)
      | none => if isWordAt rest.head? then none else some (false, rest)

/-- Reads a text in double quotes: what follows it? -/
def quoted? : List Char → Option (List Char)
  | '"' :: cs =>
    match cs.dropWhile (· != '"') with
    | _ :: rest => some rest
    | [] => none
  | _ => none

/-- The suggestion for the rest of a text after the character `before`. A rest that is not
shorter would end the text. -/
def replace (before : Option Char) (cs : List Char) : List Char :=
  match cs with
  | [] => []
  | c :: tail =>
    let goOn (placeholder : String) (last : Char) (rest : List Char) : List Char :=
      if rest.length ≤ tail.length then placeholder.toList ++ replace (some last) rest else []
    match quoted? cs with
    | some rest => goOn "\"\x7b\x7d\"" '"' rest
    | none =>
      match number? before cs with
      | some (true, rest) => goOn "\x7b:float\x7d" '0' rest
      | some (false, rest) => goOn "\x7b:int\x7d" '0' rest
      | none => c :: replace (some c) tail
termination_by cs.length
decreasing_by all_goals (simp; try omega)

def ofText (text : String) : String := String.ofList (replace none (doubleBraces text.toList))

@[simp] theorem doubleBraces_nil : doubleBraces [] = [] := rfl

theorem doubleBraces_append (as bs : List Char) :
    doubleBraces (as ++ bs) = doubleBraces as ++ doubleBraces bs := by
  induction as with
  | nil => rfl
  | cons a as ih =>
    simp only [List.cons_append, doubleBraces, ih]
    split <;> simp

end Suggestion

end Rehearsal
