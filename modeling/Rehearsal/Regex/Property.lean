import Rehearsal.Regex.Property.Binary

/-!
# Named properties

What may follow `\p`: a general category, a script, a property with two values, or a key and
a value. Case, blanks, hyphens and underscores do not count, nor does a leading `is`.
-/

namespace Rehearsal

namespace CharClass

open Text.Category

/-- The long and short names of the general categories and of their groups. Surrogates are no
characters, and their category has no name. -/
def categoryNames : List (List String × List Text.Category) := [
  (["lu", "uppercaseletter"], [lu]), (["ll", "lowercaseletter"], [ll]),
  (["lt", "titlecaseletter"], [lt]), (["lc", "casedletter"], [lu, ll, lt]),
  (["lm", "modifierletter"], [lm]), (["lo", "otherletter"], [lo]),
  (["l", "letter"], [lu, ll, lt, lm, lo]),
  (["mn", "nonspacingmark"], [mn]), (["mc", "spacingmark"], [mc]),
  (["me", "enclosingmark"], [me]), (["m", "mark", "combiningmark"], [mn, mc, me]),
  (["nd", "decimalnumber", "digit"], [nd]), (["nl", "letternumber"], [nl]),
  (["no", "othernumber"], [no]), (["n", "number"], [nd, nl, no]),
  (["pc", "connectorpunctuation"], [pc]), (["pd", "dashpunctuation"], [pd]),
  (["ps", "openpunctuation"], [ps]), (["pe", "closepunctuation"], [pe]),
  (["pi", "initialpunctuation"], [pi]), (["pf", "finalpunctuation"], [pf]),
  (["po", "otherpunctuation"], [po]),
  (["p", "punctuation", "punct"], [pc, pd, ps, pe, pi, pf, po]),
  (["sm", "mathsymbol"], [sm]), (["sc", "currencysymbol"], [sc]),
  (["sk", "modifiersymbol"], [sk]), (["so", "othersymbol"], [so]),
  (["s", "symbol"], [sm, sc, sk, so]),
  (["zs", "spaceseparator"], [zs]), (["zl", "lineseparator"], [zl]),
  (["zp", "paragraphseparator"], [zp]), (["z", "separator"], [zs, zl, zp]),
  (["cc", "control", "cntrl"], [cc]), (["cf", "format"], [cf]),
  (["co", "privateuse"], [co]), (["cn", "unassigned"], [cn]),
  (["c", "other"], [cc, cf, cs, co, cn])]

/-- A name without what does not count. The name `isc` belongs to another property than `c`. -/
def plainName (name : List Char) : List Char :=
  let plain (cs : List Char) : List Char := cs.filterMap fun c =>
    if c = ' ' || c = '_' || c = '-' then Option.none
    else if c.toNat < 128 then some c.toLower
    else Option.none
  match name with
  | i :: s :: rest =>
    if i.toLower = 'i' && s.toLower = 's' then
      if plain rest = ['c'] then ['i', 's', 'c'] else plain rest
    else plain name
  | _ => plain name

/-- The set of a category name, or of one of the names for all characters, for the assigned
ones and for ASCII. -/
def ofCategoryName? (name : String) : Option CharClass :=
  if name = "any" then some any
  else if name = "ascii" then some (range '\x00' '\x7f')
  else if name = "assigned" then some (complement (category [cn]))
  else (categoryNames.find? fun entry => entry.1.contains name).map fun entry => category entry.2

def ofScriptName? (name : String) : Option CharClass :=
  (Text.Script.named? name).map script

/-- The set of a name alone. The three names that a category shares with a property of
another kind mean the category. -/
def ofName? (name : String) : Option CharClass :=
  let inDoubt := name = "cf" || name = "sc" || name = "lc"
  match if inDoubt then Option.none else binaryProperty? name with
  | some c => some c
  | Option.none =>
    match ofCategoryName? name with
    | some c => some c
    | Option.none => ofScriptName? name

/-- The number of the edition with a name: its two numbers with a point between them, or
without the point after a `v`. -/
def editionNamed? (name : String) : Option Nat :=
  Text.Age.editions.findIdx? fun edition =>
    name == edition || name.toList == 'v' :: edition.toList.filter (· != '.')

def ofKeyed? (key value : String) : Option CharClass :=
  if key = "gc" || key = "generalcategory" then ofCategoryName? value
  else if key = "sc" || key = "script" then ofScriptName? value
  else if key = "scx" || key = "scriptextensions" then (Text.Script.named? value).map usedIn
  else if key = "age" then (editionNamed? value).map assignedBy
  else if key = "gcb" || key = "graphemeclusterbreak" then
    (Text.Break.cluster.named? value).map (breaking .cluster)
  else if key = "wb" || key = "wordbreak" then
    (Text.Break.word.named? value).map (breaking .word)
  else if key = "sb" || key = "sentencebreak" then
    (Text.Break.sentence.named? value).map (breaking .sentence)
  else Option.none

/-- A property as written: a name, or a key and a value, which may be left out. -/
inductive Query where
  | name (name : String)
  | keyed (leftOut : Bool) (key value : String)
  deriving DecidableEq, Repr, Inhabited

namespace Query

def splitUnequal : List Char → Option (List Char × List Char)
  | [] => Option.none
  | '!' :: '=' :: rest => some ([], rest)
  | c :: rest => (splitUnequal rest).map fun (key, value) => (c :: key, value)

def splitAt? (mark : Char) (cs : List Char) : Option (List Char × List Char) :=
  match cs.dropWhile (· != mark) with
  | [] => Option.none
  | _ :: value => some (cs.takeWhile (· != mark), value)

/-- Cuts a property at `!=`, else at a colon, else at an equals sign. -/
def ofText (cs : List Char) : Query :=
  let plain (cs : List Char) : String := String.ofList (plainName cs)
  match splitUnequal cs with
  | some (key, value) => keyed true (plain key) (plain value)
  | Option.none =>
    match (splitAt? ':' cs).or (splitAt? '=' cs) with
    | some (key, value) => keyed false (plain key) (plain value)
    | Option.none => name (plain cs)

end Query

/-- The set that a property names, and whether it is left out. -/
def ofProperty? (written : String) : Option (CharClass × Bool) :=
  match Query.ofText written.toList with
  | .name name => (ofName? name).map (·, false)
  | .keyed leftOut key value => (ofKeyed? key value).map (·, leftOut)

def asciiSet (name : String) : CharClass :=
  let lower := ('a', 'z')
  let upper := ('A', 'Z')
  let digits := ('0', '9')
  ofRanges <|
    if name = "alnum" then [digits, upper, lower]
    else if name = "alpha" then [upper, lower]
    else if name = "ascii" then [('\x00', '\x7f')]
    else if name = "blank" then [('\t', '\t'), (' ', ' ')]
    else if name = "cntrl" then [('\x00', '\x1f'), ('\x7f', '\x7f')]
    else if name = "digit" then [digits]
    else if name = "graph" then [('!', '~')]
    else if name = "lower" then [lower]
    else if name = "print" then [(' ', '~')]
    else if name = "punct" then [('!', '/'), (':', '@'), ('[', '\x60'), ('\x7b', '~')]
    else if name = "space" then [('\t', '\r'), (' ', ' ')]
    else if name = "upper" then [upper]
    else if name = "word" then [digits, upper, ('_', '_'), lower]
    else if name = "xdigit" then [digits, ('A', 'F'), ('a', 'f')]
    else []

end CharClass

end Rehearsal
