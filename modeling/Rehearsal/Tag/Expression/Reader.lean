import Rehearsal.Tag.Expression
import Rehearsal.Tag.Expression.Token

/-!
# Reading tag expressions

There are two written forms. In the keyword form `not` binds tighter than `and`,
`and` tighter than `or`, and both are left-associative. The comma form is older:
every token is a group of terms separated by commas, a term may be negated by one
leading `-` or `~`, the terms of a group are alternatives and all groups must
hold. A text is in the comma form when no token is a keyword or an opening
parenthesis and some token holds a comma or starts with `-` or `~`.

The keyword form is read in one pass over the tokens. What stands to the left of
the next operand inside one pair of parentheses is a `Level`; the levels around it
are kept on a stack with the parentheses that opened them.
-/

namespace Rehearsal

namespace TagExpression

inductive Fault where
  | unbalancedClosing
  | missingClosing
  | expectedClosing
  | unknownOperator
  | unexpectedToken
  | unexpectedEnd
  | operatorForTag
  | emptyName
  | emptyTerm
  deriving DecidableEq, Repr, Inhabited

def Fault.message : Fault → String
  | unbalancedClosing => "unbalanced closing parenthesis"
  | missingClosing => "missing closing parenthesis"
  | expectedClosing => "expected closing parenthesis"
  | unknownOperator => "unknown operator"
  | unexpectedToken => "unexpected token"
  | unexpectedEnd => "unexpected end of expression"
  | operatorForTag => "expected a tag but found an operator"
  | emptyName => "empty tag name"
  | emptyTerm => "empty tag in legacy group"

/-- A refused expression: the fault, the offending token and the number of
characters before it. -/
structure Error where
  expression : String
  fault : Fault
  token : String
  position : Nat
  deriving DecidableEq, Repr, Inhabited

def Error.message (e : Error) : String :=
  "invalid tag expression `" ++ e.expression ++ "`: " ++ e.fault.message ++ " at position " ++
    toString e.position ++ " (token `" ++ e.token ++ "`)"

structure Misplaced where
  fault : Fault
  token : Token
  deriving DecidableEq, Repr, Inhabited

def ofTagText (text : List Char) : TagExpression := tag (String.ofList (dropSigils text))

/-- What stands to the left of the next operand inside one pair of parentheses:
the alternatives read so far, the conjunction under way, and the pending `not`s. -/
structure Level where
  alternatives : Option TagExpression
  conjunction : Option TagExpression
  negations : Nat
  deriving DecidableEq, Repr, Inhabited

namespace Level

def start : Level := ⟨none, none, 0⟩

def conjoin (l : Level) (operand : TagExpression) : TagExpression :=
  joinLeft and l.conjunction (negate l.negations operand)

def disjoin (l : Level) (conjunction : TagExpression) : TagExpression :=
  joinLeft or l.alternatives conjunction

end Level

mutual

/-- Reads on where an operand is due. `outer` holds the open parentheses with what
stands to their left, the innermost first; `length` is the length of the text. -/
def readOperand (length : Nat) (outer : List (Token × Level)) (level : Level) :
    List Token → Except Misplaced TagExpression
  | [] => .error ⟨.unexpectedEnd, ⟨[], length⟩⟩
  | t :: ts =>
    if t.text = "not".toList then
      readOperand length outer { level with negations := level.negations + 1 } ts
    else if t.text = ['('] then readOperand length ((t, level) :: outer) Level.start ts
    else if t.text = [')'] then .error ⟨.unbalancedClosing, t⟩
    else if isKeyword t.text then .error ⟨.operatorForTag, t⟩
    else if isOperatorLike t.text then .error ⟨.unknownOperator, t⟩
    else if (dropSigils t.text).isEmpty then .error ⟨.emptyName, t⟩
    else readRest length outer level (level.conjoin (ofTagText t.text)) ts

/-- Reads on after an operand, where `conjunction` is the conjunction read so far. -/
def readRest (length : Nat) (outer : List (Token × Level)) (level : Level)
    (conjunction : TagExpression) : List Token → Except Misplaced TagExpression
  | [] =>
    match outer with
    | [] => .ok (level.disjoin conjunction)
    | (opening, _) :: _ => .error ⟨.missingClosing, opening⟩
  | t :: ts =>
    if t.text = "and".toList then
      readOperand length outer ⟨level.alternatives, some conjunction, 0⟩ ts
    else if t.text = "or".toList then
      readOperand length outer ⟨some (level.disjoin conjunction), none, 0⟩ ts
    else
      match outer with
      | (_, around) :: outer =>
        if t.text = [')'] then
          readRest length outer around (around.conjoin (level.disjoin conjunction)) ts
        else .error ⟨.expectedClosing, t⟩
      | [] =>
        if t.text = [')'] then .error ⟨.unbalancedClosing, t⟩
        else if isOperatorLike t.text then .error ⟨.unknownOperator, t⟩
        else .error ⟨.unexpectedToken, t⟩

end

def isCommaForm (tokens : List Token) : Bool :=
  !(tokens.any fun t => isKeyword t.text || t.text == ['(']) &&
    tokens.any fun t => t.text.contains ',' || ['-'].isPrefixOf t.text || ['~'].isPrefixOf t.text

/-- The terms of a token: its parts between commas, as tokens. `run` is the
unfinished part in reverse, which starts at `start`. -/
def splitTerms (start : Nat) (run : List Char) : List Char → List Token
  | [] => [⟨run.reverse, start⟩]
  | c :: cs =>
    if c = ',' then ⟨run.reverse, start⟩ :: splitTerms (start + run.length + 1) [] cs
    else splitTerms start (c :: run) cs

/-- Reads one term: a tag, negated by one leading `-` or `~`. -/
def readTerm (t : Token) : Except Misplaced TagExpression :=
  let (negated, name) := match t.text with
    | '-' :: rest => (true, rest)
    | '~' :: rest => (true, rest)
    | all => (false, all)
  if (dropSigils name).isEmpty then .error ⟨.emptyTerm, t⟩
  else if isOperatorLike name then .error ⟨.unknownOperator, t⟩
  else .ok (if negated then not (ofTagText name) else ofTagText name)

/-- Reads the alternatives of a group after `left`. -/
def readTerms (left : Option TagExpression) : List Token → Except Misplaced (Option TagExpression)
  | [] => .ok left
  | t :: ts => do
    let term ← readTerm t
    readTerms (some (joinLeft or left term)) ts

/-- Reads the groups after `left`; all of them must hold. -/
def readGroups (left : Option TagExpression) : List Token → Except Misplaced (Option TagExpression)
  | [] => .ok left
  | t :: ts => do
    match ← readTerms none (splitTerms t.position [] t.text) with
    | some group => readGroups (some (joinLeft and left group)) ts
    | none => readGroups left ts

def readTokens (length : Nat) (tokens : List Token) : Except Misplaced TagExpression :=
  if tokens.isEmpty then .ok always
  else if isCommaForm tokens then (readGroups none tokens).map (·.getD always)
  else readOperand length [] Level.start tokens

def parse (expression : String) : Except Error TagExpression :=
  match readTokens expression.length (Token.all expression.toList) with
  | .ok e => .ok e
  | .error m => .error ⟨expression, m.fault, String.ofList m.token.text, m.token.position⟩

end TagExpression

end Rehearsal
