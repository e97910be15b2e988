import Rehearsal.Number.Double

/-!
# JSON

Values of the JSON format, whose records keep the order of their fields, and their two
written forms: on one line, and with one entry a line, indented by two blanks a level.

A double is written with the fewest digits that read back, of which the last one is even
where two texts are equally near. It is always written as a double: with a point, or with a
signed exponent where its first digit stands six or more places after the point or more than
sixteen before it.
-/

namespace Rehearsal

inductive Json where
  | null
  | bool (b : Bool)
  | int (n : Int)
  | float (x : Float)
  | text (s : String)
  | list (items : List Json)
  | record (fields : List (String × Json))
  deriving Repr, Inhabited

namespace Json

def nat (n : Nat) : Json := int n

def texts (ss : List String) : Json := list (ss.map text)

def optional (f : α → Json) : Option α → Json
  | some a => f a
  | none => null

def hex4 (n : Nat) : String :=
  let digits := Nat.toDigits 16 n
  String.ofList (List.replicate (4 - digits.length) '0' ++ digits)

def escapeChar (c : Char) : String :=
  if c = '"' then "\\\""
  else if c = '\\' then "\\\\"
  else if c = '\n' then "\\n"
  else if c = '\r' then "\\r"
  else if c = '\t' then "\\t"
  else if c = '\x08' then "\\b"
  else if c = '\x0c' then "\\f"
  else if c.toNat < 0x20 then "\\u" ++ hex4 c.toNat
  else String.singleton c

def quote (s : String) : String := "\"" ++ String.join (s.toList.map escapeChar) ++ "\""

def decimal (d : Number.Decimal) : String :=
  let digits := Nat.toDigits 10 d.digits
  let leading : Int := digits.length + d.exponent
  if 0 ≤ d.exponent && leading ≤ 16 then d.positional ++ ".0"
  else if -5 < leading && leading ≤ 16 then d.positional
  else
    let exponent := (if 1 ≤ leading then "e+" else "e") ++ toString (leading - 1)
    match digits with
    | [] => "0.0"
    | [a] => String.singleton a ++ exponent
    | a :: rest => String.ofList (a :: '.' :: rest) ++ exponent

/-- A double as a JSON number; infinities and what is no number become `null`. -/
def double (x : Float) : String :=
  let bits := x.toBits.toNat
  let sign := if bits / Nat.pow 2 63 = 1 then "-" else ""
  if x.isNaN || x.isInf then "null"
  else
    let (m, q) := Number.decodeBits bits
    if m = 0 then sign ++ "0.0"
    else
      sign ++ decimal
        ((Number.shortest .toEven (Number.Rounding.ofBinary m q (-1074))).strip 20)

mutual

def compact : Json → String
  | null => "null"
  | bool b => if b then "true" else "false"
  | int n => toString n
  | float x => double x
  | text s => quote s
  | list items => "[" ++ ",".intercalate (compactItems items) ++ "]"
  | record fields => "\x7b" ++ ",".intercalate (compactFields fields) ++ "\x7d"

def compactItems : List Json → List String
  | [] => []
  | a :: rest => compact a :: compactItems rest

def compactFields : List (String × Json) → List String
  | [] => []
  | (k, a) :: rest => (quote k ++ ":" ++ compact a) :: compactFields rest

end

def newLine (level : Nat) : String := "\n" ++ String.ofList (List.replicate (2 * level) ' ')

/-- Entries one to a line between brackets. -/
def block (level : Nat) (opening closing : String) (entries : List String) : String :=
  if entries.isEmpty then opening ++ closing
  else
    opening ++ newLine (level + 1) ++ ("," ++ newLine (level + 1)).intercalate entries ++
      newLine level ++ closing

mutual

/-- The value with one entry a line, at a level of indentation. -/
def prettyAt (level : Nat) : Json → String
  | list items => block level "[" "]" (prettyItems (level + 1) items)
  | record fields => block level "\x7b" "\x7d" (prettyFields (level + 1) fields)
  | null => "null"
  | bool b => if b then "true" else "false"
  | int n => toString n
  | float x => double x
  | text s => quote s

def prettyItems (level : Nat) : List Json → List String
  | [] => []
  | a :: rest => prettyAt level a :: prettyItems level rest

def prettyFields (level : Nat) : List (String × Json) → List String
  | [] => []
  | (k, a) :: rest => (quote k ++ ": " ++ prettyAt level a) :: prettyFields level rest

end

def pretty (j : Json) : String := prettyAt 0 j

end Json

end Rehearsal
