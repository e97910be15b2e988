import Rehearsal.Text.Blank

/-!
# Tokens of a tag expression

A token is a single parenthesis or a longest run of characters that are neither
blank nor a parenthesis. Every token knows the number of characters before it.
-/

namespace Rehearsal

namespace TagExpression

structure Token where
  text : List Char
  position : Nat
  deriving DecidableEq, Repr, Inhabited

namespace Token

def isParen (c : Char) : Bool := c == '(' || c == ')'

def isInner (c : Char) : Bool := !Text.isBlank c && !isParen c

/-- Ends the run collected so far, in reverse, before the character at `here`. -/
def close (run : List Char) (here : Nat) : List Token :=
  if run.isEmpty then [] else [⟨run.reverse, here - run.length⟩]

/-- The tokens of `cs`, where `here` characters were read before and `run` is the
unfinished run just before, in reverse. -/
def scan (run : List Char) (here : Nat) : List Char → List Token
  | [] => close run here
  | c :: cs =>
    if isInner c then scan (c :: run) (here + 1) cs
    else if isParen c then close run here ++ ⟨[c], here⟩ :: scan [] (here + 1) cs
    else close run here ++ scan [] (here + 1) cs

def all (expression : List Char) : List Token := scan [] 0 expression

@[simp] theorem close_nil (here : Nat) : close [] here = [] := rfl

end Token

def isKeyword (text : List Char) : Bool :=
  text == "and".toList || text == "or".toList || text == "not".toList

/-- Texts that look like an operator of some other notation and are refused. -/
def isOperatorLike (text : List Char) : Bool :=
  text == ['&'] || text == ['|'] || text == ['^'] || text == ['=', '='] ||
    ['!'].isPrefixOf text || ['&', '&'].isPrefixOf text || ['|', '|'].isPrefixOf text

end TagExpression

end Rehearsal
