import Std.Data.HashMap
import NodeScaffold.Files.Path

/-! # File trees

A tree of directories and files with a working directory in it. A path is followed part by part, and
every part but the last must lead to a directory that is there; names and paths have a longest
size. -/
namespace NodeScaffold
set_option autoImplicit false

inductive FileError where
  | notFound
  | alreadyExists
  | notADirectory
  | isADirectory
  | nameTooLong
  | notText
  /-- any other reason, in the words of the system -/
  | other (message : Text)
deriving DecidableEq

def FileError.message : FileError → Text
  | notFound => "No such file or directory (os error 2)"
  | alreadyExists => "File exists (os error 17)"
  | notADirectory => "Not a directory (os error 20)"
  | isADirectory => "Is a directory (os error 21)"
  | nameTooLong => "File name too long (os error 36)"
  | notText => "stream did not contain valid UTF-8"
  | other message => message

/-- What a file holds: a text, or bytes that are the UTF-8 form of no text. -/
inductive Contents where
  | text (t : Text)
  | bytes (raw : List UInt8)
deriving DecidableEq

inductive Entry where
  | directory
  | file (contents : Contents)
deriving DecidableEq

/-- A place in a tree, as the names on the way from there out to the root. -/
abbrev Location := List Text

/-- Directories and files by their locations. Permissions, links and files that were written in part
are left out: an operation is done as a whole, or it changes nothing and fails for a reason that can
be read off from the tree, which is never `FileError.other`. -/
structure FileTree where
  entries : Std.HashMap Location Entry := {}
  /-- the working directory, where relative paths start -/
  home : Location := []

namespace FileTree

/-- What stands at a location; the root is a directory. -/
def entry? (tree : FileTree) : Location → Option Entry
  | [] => some .directory
  | place => tree.entries[place]?

def insert (tree : FileTree) (place : Location) (entry : Entry) : FileTree :=
  { tree with entries := tree.entries.insert place entry }

def enter (tree : FileTree) (place : Location) (part : Text) : Except FileError Location :=
  if part = Path.here then .ok place
  else if part = Path.above then .ok place.tail
  else if Path.nameLimit < part.byteSize then .error .nameTooLong
  else match tree.entry? (part :: place) with
    | some .directory => .ok (part :: place)
    | some (.file _) => .error .notADirectory
    | none => .error .notFound

/-- Where a path leads: to a directory that is there, or to a name in one. -/
inductive Place where
  | directory (place : Location)
  | name (place : Location)
deriving DecidableEq

def start (tree : FileTree) (path : Text) : Location :=
  if Path.isAbsolute path then [] else tree.home

def locate (tree : FileTree) (path : Text) : Except FileError Place :=
  if path.isEmpty then .error .notFound
  else if Path.lengthLimit ≤ path.byteSize then .error .nameTooLong
  else match (Path.parts path).getLast? with
    | none => .ok (.directory (tree.start path))
    | some last => do
      let directory ← (Path.parts path).dropLast.foldlM tree.enter (tree.start path)
      if last = Path.here then .ok (.directory directory)
      else if last = Path.above then .ok (.directory directory.tail)
      else if Path.nameLimit < last.byteSize then .error .nameTooLong
      else .ok (.name (last :: directory))

def readText (tree : FileTree) (path : Text) : Except FileError Text := do
  match ← tree.locate path with
  | .directory _ => .error .isADirectory
  | .name place =>
    match tree.entry? place with
    | none => .error .notFound
    | some .directory => .error .isADirectory
    | some (.file contents) =>
      if Path.endsInSlash path then .error .notADirectory
      else match contents with
        | .text t => .ok t
        | .bytes _ => .error .notText

def writeText (tree : FileTree) (path t : Text) : Except FileError FileTree := do
  match ← tree.locate path with
  | .directory _ => .error .isADirectory
  | .name place =>
    match tree.entry? place with
    | some .directory => .error .isADirectory
    | some (.file _) =>
      if Path.endsInSlash path then .error .notADirectory
      else .ok (tree.insert place (.file (.text t)))
    | none =>
      if Path.endsInSlash path then .error .isADirectory
      else .ok (tree.insert place (.file (.text t)))

def makeDirectory (tree : FileTree) (path : Text) : Except FileError FileTree := do
  match ← tree.locate path with
  | .directory _ => .error .alreadyExists
  | .name place =>
    match tree.entry? place with
    | some _ => .error .alreadyExists
    | none => .ok (tree.insert place .directory)

def isDirectory (tree : FileTree) (path : Text) : Bool :=
  match tree.locate path with
  | .ok (.directory _) => true
  | .ok (.name place) => tree.entry? place = some .directory
  | .error _ => false

end FileTree

end NodeScaffold
