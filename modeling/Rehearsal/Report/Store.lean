import Rehearsal.Report.Json
import Rehearsal.Report.Path
import Rehearsal.Report.Rerun

/-!
# Saved reports

A store keeps texts and directories in a tree. Writing a text makes the directories on its
way; nothing can be made below a text, and a directory can be neither read nor written over
nor removed. What is not there need not be removed.
-/

namespace Rehearsal

/-- Where something lies: the names from the root of the tree on. -/
abbrev Place := List String

structure Store where
  texts : List (Place × String)
  directories : List Place
  deriving DecidableEq, Repr, Inhabited

inductive StoreError where
  | noDirectory (directory : Path)
  | notReplaced (path : Path)
  | notRead (path : Path)
  | notRemoved (path : Path)
  | noReport (path : Path) (cause : StoreError)
  | location (e : NoLocation)
  deriving Repr, Inhabited

def StoreError.message (root : String) : StoreError → String
  | noDirectory directory => "Failed to create directory: " ++ directory.below root
  | notReplaced path => "Failed to move report into place: " ++ path.below root
  | notRead path => "Failed to read file: " ++ path.below root
  | notRemoved path => "Failed to remove " ++ path.below root
  | noReport path _ => "Failed to write JSON report: " ++ path.below root
  | location e => e.message

inductive Found where
  | directory (place : Place)
  | text (place : Place) (t : String)
  /-- Nothing is there yet, but the directory around it is. -/
  | vacant (place : Place)
  /-- Something on the way is missing. -/
  | missing
  /-- The way leads through a text, or a name is too long. -/
  | blocked
  deriving DecidableEq, Repr, Inhabited

namespace Store

def empty : Store := ⟨[], []⟩

def home : Place := ["tmp", "reports"]

def startOf (p : Path) : Place := if p.isAbsolute then [] else home

def text? (s : Store) (place : Place) : Option String := s.texts.lookup place

/-- Is there a directory at the place? The directories around the home are always there. -/
def isDirectory (s : Store) (place : Place) : Bool :=
  place.isPrefixOf home || s.directories.contains place

/-- Walks along the names of a path from the directory at `place`. -/
def walk (s : Store) (place : Place) : Path → Found
  | [] => .directory place
  | name :: rest =>
    if Path.isIdle name then walk s place rest
    else if name = ".." then walk s place.dropLast rest
    else if Path.nameLimit < name.utf8ByteSize then .blocked
    else
      let next := place ++ [name]
      if s.isDirectory next then walk s next rest
      else
        match s.text? next with
        | some t => if rest.isEmpty then .text next t else .blocked
        | none => if rest.isEmpty then .vacant next else .missing

def find (s : Store) (p : Path) : Found :=
  if p.isUsable then s.walk (startOf p) p else .blocked

def holds (s : Store) (p : Path) : Bool :=
  match s.find p with
  | .directory _ => true
  | .text _ _ => true
  | _ => false

/-- Makes the missing directories on the way along the names of a path, up to the first one
that cannot be made. The answer tells whether all of them are there. -/
def makeFrom (s : Store) (place : Place) : Path → Store × Bool
  | [] => (s, true)
  | name :: rest =>
    if Path.isIdle name then makeFrom s place rest
    else if name = ".." then makeFrom s place.dropLast rest
    else if Path.nameLimit < name.utf8ByteSize then (s, false)
    else
      let next := place ++ [name]
      if s.isDirectory next then makeFrom s next rest
      else if (s.text? next).isSome then (s, false)
      else makeFrom { s with directories := s.directories ++ [next] } next rest

def make (s : Store) (p : Path) : Store × Bool :=
  if p.isUsable then s.makeFrom (startOf p) p else (s, false)

def put (s : Store) (place : Place) (t : String) : Store :=
  { s with texts := (place, t) :: s.texts.filter fun e => e.1 != place }

def read (s : Store) (p : Path) : Except StoreError String :=
  match s.find p with
  | .text _ t => .ok t
  | _ => .error (.notRead p)

/-- Writes a text. The directories are made even if the text cannot be put into place. -/
def write (s : Store) (p : Path) (t : String) : Store × Except StoreError Unit :=
  match s.make p.parent with
  | (s, false) => (s, .error (.noDirectory p.parent))
  | (s, true) =>
    match s.find p with
    | .text place _ => (s.put place t, .ok ())
    | .vacant place => (s.put place t, .ok ())
    | _ => (s, .error (.notReplaced p))

def remove (s : Store) (p : Path) : Store × Except StoreError Unit :=
  match s.find p with
  | .text place _ => ({ s with texts := s.texts.filter fun e => e.1 != place }, .ok ())
  | .vacant _ => (s, .ok ())
  | .missing => (s, .ok ())
  | _ => (s, .error (.notRemoved p))

/-- Saves the rerun file of a run, or removes the one there is if nothing failed. -/
def writeRerun (s : Store) (p : Path) (r : RunResult) : Store × Except StoreError Unit :=
  if r.rerun.isEmpty then s.remove p else s.write p (Rerun.render r)

def readRerun (s : Store) (p : Path) : Except StoreError (List Location) :=
  match s.read p with
  | .error e => .error e
  | .ok t => (Rerun.parse t).mapError .location

def writeReport (s : Store) (p : Path) (r : RunResult) : Store × Except StoreError Unit :=
  match s.write p r.renderJson with
  | (s, .ok ()) => (s, .ok ())
  | (s, .error e) => (s, .error (.noReport p e))

end Store

end Rehearsal
