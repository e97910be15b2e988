import Rehearsal.Text.Recent

/-!
# Quoted text

A text in double quotes for diagnostics. Quotes and backslashes are escaped, and so is
every character that is not shown by itself.
-/

namespace Rehearsal

namespace Text

def codePoint (c : Char) : String :=
  "\\u\x7b" ++ String.ofList (Nat.toDigits 16 c.toNat) ++ "\x7d"

def quoteChar (c : Char) : String :=
  if c = '\x00' then "\\0"
  else if c = '\t' then "\\t"
  else if c = '\r' then "\\r"
  else if c = '\n' then "\\n"
  else if c = '\\' then "\\\\"
  else if c = '"' then "\\\""
  else if Recent.isExtender c || !Recent.isShown c then codePoint c
  else String.singleton c

def quote (s : String) : String := "\"" ++ String.join (s.toList.map quoteChar) ++ "\""

def quoteList (ss : List String) : String := "[" ++ ", ".intercalate (ss.map quote) ++ "]"

end Text

end Rehearsal
