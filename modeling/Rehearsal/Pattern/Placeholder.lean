import Rehearsal.Pattern.ParameterType
import Rehearsal.Text.Offset
import Rehearsal.Text.Recent

/-!
# Placeholders

A pattern with placeholders is plain text in which braces have a meaning: a doubled brace
is a brace, and `{name:type}` is a placeholder, whose name and type may both be missing.
Blanks around name and type do not count. Names are made of letters, digits and
underscores and occur once; a type has to be in the table.

The scanner goes through the text once and stops at the first fault.
-/

namespace Rehearsal

inductive PlaceholderFault where
  | unmatchedClosing
  | missingClosing
  | invalidName
  | duplicateName
  | emptyType
  deriving DecidableEq, Repr, Inhabited

def PlaceholderFault.message : PlaceholderFault → String
  | unmatchedClosing => "unmatched closing brace"
  | missingClosing => "missing closing brace for placeholder"
  | invalidName => "invalid placeholder name"
  | duplicateName => "duplicate placeholder name"
  | emptyType => "empty parameter type"

inductive PatternError where
  /-- The position counts the bytes before the brace at fault. -/
  | placeholder (pattern : String) (fault : PlaceholderFault) (position : Nat)
  | unknownType (pattern typeName : String)
  | regex (pattern : String)
  | duplicateType (name : String)
  deriving DecidableEq, Repr, Inhabited

def PatternError.message : PatternError → String
  | placeholder pattern fault position =>
    "pattern `" ++ pattern ++ "`: " ++ fault.message ++ " at position " ++ toString position
  | unknownType pattern typeName =>
    "pattern `" ++ pattern ++ "` uses unknown parameter type `" ++ typeName ++ "`"
  | regex pattern => "pattern `" ++ pattern ++ "` is not a valid regular expression"
  | duplicateType name => "parameter type `" ++ name ++ "` is already registered"

inductive PatternPiece where
  | literal (c : Char)
  | placeholder (name : Option String) (type : Option ParameterType)

namespace PatternPiece

/-- The name and the type written inside the braces of a placeholder, cut at the first
colon. -/
def splitInner (inner : List Char) : List Char × Option (List Char) :=
  match inner.dropWhile (· != ':') with
  | [] => (Text.trimChars inner, none)
  | _ :: type => (Text.trimChars (inner.takeWhile (· != ':')), some (Text.trimChars type))

/-- May the text be the name of a placeholder? The empty text is no name, but allowed. -/
def isNameText (name : List Char) : Bool :=
  name.all fun c => Text.Recent.isAlphanumeric c || c == '_'

def isBrace (c : Char) : Bool := c == '\x7b' || c == '\x7d'

/-- The placeholder with the given text between its braces. `names` are the names used
before. -/
def ofInner (types : ParameterTypes) (pattern : String) (names : List String) (position : Nat)
    (inner : List Char) : Except PatternError PatternPiece :=
  let (nameText, typeText) := splitInner inner
  let name := String.ofList nameText
  if !isNameText nameText then .error (.placeholder pattern .invalidName position)
  else if !nameText.isEmpty && names.contains name then
    .error (.placeholder pattern .duplicateName position)
  else
    let named := if nameText.isEmpty then none else some name
    match typeText with
    | none => .ok (placeholder named none)
    | some [] => .error (.placeholder pattern .emptyType position)
    | some typeText =>
      match types.find? (String.ofList typeText) with
      | some type => .ok (placeholder named (some type))
      | none => .error (.unknownType pattern (String.ofList typeText))

def addName (names : List String) : PatternPiece → List String
  | placeholder (some name) _ => name :: names
  | _ => names

/-- Reads on where `position` bytes were read and `names` are the names used so far. -/
def scan (types : ParameterTypes) (pattern : String) (names : List String) (position : Nat)
    (cs : List Char) : Except PatternError (List PatternPiece) :=
  match cs with
  | [] => .ok []
  | c :: rest =>
    if c = '\x7b' then
      match rest with
      | '\x7b' :: rest => (scan types pattern names (position + 2) rest).map (literal c :: ·)
      | rest =>
        let inner := rest.takeWhile fun x => !isBrace x
        match _h : rest.dropWhile fun x => !isBrace x with
        | '\x7d' :: after =>
          match ofInner types pattern names position inner with
          | .ok piece =>
            (scan types pattern (addName names piece)
              (position + 2 + Text.byteLength inner) after).map (piece :: ·)
          | .error e => .error e
        | _ => .error (.placeholder pattern .missingClosing position)
    else if c = '\x7d' then
      match rest with
      | '\x7d' :: rest => (scan types pattern names (position + 2) rest).map (literal c :: ·)
      | _ => .error (.placeholder pattern .unmatchedClosing position)
    else (scan types pattern names (position + c.utf8Size) rest).map (literal c :: ·)
termination_by cs.length
decreasing_by
  · simp only [List.length_cons]
    omega
  · have hle := (List.dropWhile_suffix (fun x => !isBrace x) (l := rest)).length_le
    rw [_h] at hle
    simp only [List.length_cons] at hle ⊢
    omega
  · simp only [List.length_cons]
    omega
  · simp

def all (types : ParameterTypes) (pattern : String) : Except PatternError (List PatternPiece) :=
  scan types pattern [] 0 pattern.toList

end PatternPiece

end Rehearsal
