import Rehearsal.Config.Toml.Scalar

/-!
# TOML

Reads a configuration in the TOML format: tables with headers, plain and dotted keys, the
four kinds of strings, scalars, lists and inline tables, both of which may go over several
lines and end in a comma. No setting is a list of tables with headers, so the reader
refuses it.

A table may be opened by one header only, and no key may be set twice. Tables that arise
from dotted keys are closed to headers, and tables with a header are closed to dotted keys
from elsewhere.
-/

namespace Rehearsal

namespace Toml

/-- How a table came to be. -/
inductive Origin where
  /-- Named on the way in a header. -/
  | onTheWay
  | header
  | dotted
  deriving DecidableEq, Repr, Inhabited

/-- An entry of a table under construction. -/
inductive Node where
  | value (s : Setting)
  | table (origin : Origin) (entries : List (String × Node))
  deriving Repr, Inhabited

abbrev Entries := List (String × Node)

def putEntry (key : String) (n : Node) : Entries → Entries
  | [] => [(key, n)]
  | (k, old) :: rest => if k = key then (key, n) :: rest else (k, old) :: putEntry key n rest

/-- Opens the table with the given path by a header. -/
def openTable (path : List String) (es : Entries) : Option Entries :=
  match path with
  | [] => none
  | [key] =>
    match es.lookup key with
    | none => some (putEntry key (.table .header []) es)
    | some (.table .onTheWay inner) => some (putEntry key (.table .header inner) es)
    | some _ => none
  | key :: rest =>
    match es.lookup key with
    | none => (openTable rest []).map fun inner => putEntry key (.table .onTheWay inner) es
    | some (.table origin inner) =>
      (openTable rest inner).map fun inner => putEntry key (.table origin inner) es
    | some (.value _) => none

/-- Sets a key, which may be dotted, in a table. -/
def setKey (path : List String) (s : Setting) (es : Entries) : Option Entries :=
  match path with
  | [] => none
  | [key] =>
    match es.lookup key with
    | none => some (putEntry key (.value s) es)
    | some _ => none
  | key :: rest =>
    match es.lookup key with
    | none => (setKey rest s []).map fun inner => putEntry key (.table .dotted inner) es
    | some (.table .header _) => none
    | some (.table origin inner) =>
      (setKey rest s inner).map fun inner => putEntry key (.table origin inner) es
    | some (.value _) => none

def inTable (path : List String) (f : Entries → Option Entries) (es : Entries) : Option Entries :=
  match path with
  | [] => f es
  | key :: rest =>
    match es.lookup key with
    | some (.table origin inner) =>
      (inTable rest f inner).map fun inner => putEntry key (.table origin inner) es
    | _ => none

mutual

def Node.setting : Node → Setting
  | .value s => s
  | .table _ entries => .table (settings entries)

def settings : Entries → List (String × Setting)
  | [] => []
  | (k, n) :: rest => (k, n.setting) :: settings rest

end

/-! ## Characters -/

def isBlank (c : Char) : Bool := c == ' ' || c == '\t'

def skipBlanks (cs : List Char) : List Char := cs.dropWhile isBlank

def isAllowed (c : Char) : Bool := c == '\t' || (0x20 ≤ c.toNat && c.toNat != 0x7F)

def newLine? : List Char → Option (List Char)
  | '\n' :: cs => some cs
  | '\r' :: '\n' :: cs => some cs
  | _ => none

def skipComment : List Char → List Char
  | '#' :: cs => cs.dropWhile isAllowed
  | cs => cs

def skipLines : Nat → List Char → List Char
  | 0, cs => cs
  | fuel + 1, cs =>
    let rest := skipComment (skipBlanks cs)
    match newLine? rest with
    | some rest => skipLines fuel rest
    | none => rest

/-- Reads the rest of a line, which may hold a comment only. -/
def endOfLine? (cs : List Char) : Option (List Char) :=
  match skipComment (skipBlanks cs) with
  | [] => some []
  | rest => newLine? rest

/-! ## Strings -/

def codePoint? (digits : Nat) (cs : List Char) : Option (Char × List Char) :=
  let taken := cs.take digits
  match taken.mapM hexDigit? with
  | some values =>
    let n := values.foldl (fun n d => 16 * n + d) 0
    if taken.length = digits && n.isValidChar then some (Char.ofNat n, cs.drop digits) else none
  | none => none

/-- Reads an escape after its backslash. -/
def escape? : List Char → Option (Char × List Char)
  | 'b' :: cs => some ('\x08', cs)
  | 'e' :: cs => some ('\x1b', cs)
  | 't' :: cs => some ('\t', cs)
  | 'n' :: cs => some ('\n', cs)
  | 'f' :: cs => some ('\x0c', cs)
  | 'r' :: cs => some ('\r', cs)
  | '"' :: cs => some ('"', cs)
  | '\\' :: cs => some ('\\', cs)
  | 'x' :: cs => codePoint? 2 cs
  | 'u' :: cs => codePoint? 4 cs
  | 'U' :: cs => codePoint? 8 cs
  | _ => none

/-- Reads the rest of a string with escapes on one line. -/
def basic? (read : List Char) : Nat → List Char → Option (String × List Char)
  | _, '"' :: cs => some (String.ofList read.reverse, cs)
  | fuel + 1, '\\' :: cs =>
    match escape? cs with
    | some (c, rest) => basic? (c :: read) fuel rest
    | none => none
  | fuel + 1, c :: cs => if isAllowed c then basic? (c :: read) fuel cs else none
  | _, _ => none

/-- Reads the rest of a string without escapes on one line. -/
def literal? (read : List Char) : List Char → Option (String × List Char)
  | '\'' :: cs => some (String.ofList read.reverse, cs)
  | c :: cs => if isAllowed c then literal? (c :: read) cs else none
  | [] => none

def dropFirstLineEnd (cs : List Char) : List Char := (newLine? cs).getD cs

def skipBlankLines : Nat → List Char → List Char
  | 0, cs => cs
  | fuel + 1, cs =>
    match newLine? (skipBlanks cs) with
    | some rest => skipBlankLines fuel rest
    | none => skipBlanks cs

/-- Reads the rest of a string of several lines between three `quote`s; with `escapes` a
backslash starts an escape, and at the end of a line it joins lines. Ends of lines are
kept as they are written. Up to two quotes may stand before the closing ones. -/
def multiLine? (quote : Char) (escapes : Bool) (read : List Char) :
    Nat → List Char → Option (String × List Char)
  | 0, _ => none
  | _, [] => none
  | fuel + 1, c :: cs =>
    if c = quote then
      let run := (c :: cs).takeWhile (· == quote)
      let rest := (c :: cs).dropWhile (· == quote)
      if run.length < 3 then multiLine? quote escapes (run ++ read) fuel rest
      else if run.length ≤ 5 then
        some (String.ofList (read.reverse ++ run.drop 3), rest)
      else none
    else if escapes && c = '\\' then
      match escape? cs with
      | some (x, rest) => multiLine? quote escapes (x :: read) fuel rest
      | none =>
        match newLine? (skipBlanks cs) with
        | some rest => multiLine? quote escapes read fuel (skipBlankLines rest.length rest)
        | none => none
    else if isAllowed c || (newLine? (c :: cs)).isSome then
      multiLine? quote escapes (c :: read) fuel cs
    else none

def string? (cs : List Char) : Option (String × List Char) :=
  match cs with
  | '"' :: '"' :: '"' :: rest => multiLine? '"' true [] cs.length (dropFirstLineEnd rest)
  | '\'' :: '\'' :: '\'' :: rest => multiLine? '\'' false [] cs.length (dropFirstLineEnd rest)
  | '"' :: rest => basic? [] cs.length rest
  | '\'' :: rest => literal? [] rest
  | _ => none

/-! ## Keys -/

def isBareKey (c : Char) : Bool := c.isAlpha || c.isDigit || c == '_' || c == '-'

def keyPart? (cs : List Char) : Option (String × List Char) :=
  match cs with
  | '"' :: rest => basic? [] cs.length rest
  | '\'' :: rest => literal? [] rest
  | _ =>
    let name := cs.takeWhile isBareKey
    if name.isEmpty then none else some (String.ofList name, cs.dropWhile isBareKey)

def key? : Nat → List Char → Option (List String × List Char)
  | 0, _ => none
  | fuel + 1, cs =>
    match keyPart? (skipBlanks cs) with
    | none => none
    | some (part, rest) =>
      match skipBlanks rest with
      | '.' :: more => (key? fuel more).map fun (parts, rest) => (part :: parts, rest)
      | rest => some ([part], rest)

/-! ## Values -/

mutual

/-- Reads a value; lists and tables may be nested `depth` deep. -/
def value? (depth : Nat) (cs : List Char) : Option (Setting × List Char) :=
  match depth, cs with
  | depth + 1, '[' :: rest =>
    (items? depth rest.length [] rest).map fun (items, rest) => (.list items, rest)
  | depth + 1, '\x7b' :: rest =>
    (fields? depth rest.length [] rest).map fun (es, rest) => (.table (settings es), rest)
  | _, '"' :: _ => (string? cs).map fun (s, rest) => (.text s, rest)
  | _, '\'' :: _ => (string? cs).map fun (s, rest) => (.text s, rest)
  | _, cs => readScalar? cs
termination_by (depth, 0)

/-- Reads the items of a list after the ones in `read`, the last one first. -/
def items? (depth fuel : Nat) (read : List Setting) (cs : List Char) :
    Option (List Setting × List Char) :=
  match skipLines cs.length cs with
  | ']' :: rest => some (read.reverse, rest)
  | here =>
    match value? depth here with
    | none => none
    | some (item, rest) =>
      match skipLines rest.length rest, fuel with
      | ']' :: rest, _ => some ((item :: read).reverse, rest)
      | ',' :: rest, fuel + 1 => items? depth fuel (item :: read) rest
      | _, _ => none
termination_by (depth, fuel + 1)

/-- Reads the fields of an inline table after the ones in `read`. Lines may end on either side
of an equals sign. -/
def fields? (depth fuel : Nat) (read : Entries) (cs : List Char) :
    Option (Entries × List Char) :=
  match skipLines cs.length cs with
  | '\x7d' :: rest => some (read, rest)
  | here =>
    match (key? here.length here).map fun (path, rest) => (path, skipLines rest.length rest) with
    | some (path, '=' :: rest) =>
      match value? depth (skipLines rest.length rest) with
      | none => none
      | some (s, rest) =>
        match setKey path s read with
        | none => none
        | some read =>
          match skipLines rest.length rest, fuel with
          | '\x7d' :: rest, _ => some (read, rest)
          | ',' :: rest, fuel + 1 => fields? depth fuel read rest
          | _, _ => none
    | _ => none
termination_by (depth, fuel + 1)

end

def depthLimit : Nat := 80

/-! ## Documents -/

/-- Reads the lines of a document into the table with the path `current`. -/
def lines? (current : List String) (es : Entries) : Nat → List Char → Option Entries
  | 0, cs => if cs.isEmpty then some es else none
  | fuel + 1, cs =>
    match skipLines cs.length cs with
    | [] => some es
    | '[' :: rest =>
      match key? rest.length rest with
      | some (path, ']' :: rest) =>
        match openTable path es, endOfLine? rest with
        | some es, some rest => lines? path es fuel rest
        | _, _ => none
      | _ => none
    | here =>
      match key? here.length here with
      | some (path, '=' :: rest) =>
        match value? depthLimit (skipBlanks rest) with
        | none => none
        | some (s, rest) =>
          match inTable current (setKey path s) es, endOfLine? rest with
          | some es, some rest => lines? current es fuel rest
          | _, _ => none
      | _ => none

/-- Reads a document. A mark of the byte order at its start does not count. -/
def parse? (text : String) : Option Setting :=
  let cs := match text.toList with
    | c :: rest => if c.toNat = 0xFEFF then rest else c :: rest
    | [] => []
  (lines? [] [] (cs.length + 1) cs).map fun es => .table (settings es)

end Toml

end Rehearsal
