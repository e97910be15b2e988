import Rehearsal.Text.Split

/-!
# Paths

A path is kept as it is written, cut at its slashes, so that it can be shown again. It
leads from directory to directory: empty names and single points stay where they are, two
points go up, and every other name goes down.
-/

namespace Rehearsal

/-- The names of a written path, empty names among them. -/
abbrev Path := List String

namespace Path

def ofText (text : String) : Path := (Text.splitOn '/' text.toList).map String.ofList

def toText (p : Path) : String := "/".intercalate p

def isAbsolute : Path → Bool
  | "" :: _ :: _ => true
  | _ => false

/-- The path as it is shown when it is read from the directory `root`. -/
def below (root : String) (p : Path) : String :=
  if p.isEmpty then root
  else if p.isAbsolute then p.toText
  else root ++ "/" ++ p.toText

/-- Does the name stay where it is? -/
def isIdle (name : String) : Bool := name == "" || name == "."

def trimmed (p : Path) : Path := (p.reverse.dropWhile isIdle).reverse

def parent (p : Path) : Path := trimmed (trimmed p).dropLast

def nameLimit : Nat := 255

/-- The greatest size of a path, which leaves room for the directory it is read from. -/
def sizeLimit : Nat := 4079

/-- Can the path be asked for? It can hold no NUL character and must not be too long. -/
def isUsable (p : Path) : Bool :=
  !(p.any fun name => name.toList.contains '\x00') && p.toText.utf8ByteSize ≤ sizeLimit

end Path

end Rehearsal
