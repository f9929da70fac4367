import NodeScaffold.Files.Tree

/-! # Hosts

A host is what a command runs on: files, a standard output and an error output. A world is a host
that is a value, so that what a command does to it can be computed. -/
namespace NodeScaffold
set_option autoImplicit false

class Host (m : Type → Type) where
  readText (path : Text) : m (Except FileError Text)
  writeText (path t : Text) : m (Except FileError Unit)
  makeDirectory (path : Text) : m (Except FileError Unit)
  isDirectory (path : Text) : m Bool
  /-- writes to the standard output -/
  print (t : Text) : m Unit
  /-- writes a line to the error output -/
  report (line : Text) : m Unit

instance {ε : Type} {m : Type → Type} [Monad m] [Host m] : Host (ExceptT ε m) where
  readText path := ExceptT.lift (Host.readText path)
  writeText path t := ExceptT.lift (Host.writeText path t)
  makeDirectory path := ExceptT.lift (Host.makeDirectory path)
  isDirectory path := ExceptT.lift (Host.isDirectory path)
  print t := ExceptT.lift (Host.print t)
  report line := ExceptT.lift (Host.report line)

/-- The files, and what was written to the two outputs, which take whatever they are given. A world
fails only where its tree does, so never with `FileError.other`. Permissions, links, writes that end
half way and outputs that fail are left out. -/
structure World where
  files : FileTree
  output : Text := []
  errors : Text := []

namespace World

/-- Changes the files of a world. A change that fails gives the error of the tree and has changed
nothing. -/
def update (change : FileTree → Except FileError FileTree) :
    StateM World (Except FileError Unit) := do
  match change (← get).files with
  | .ok files => do
    modify ({ · with files })
    return .ok ()
  | .error e => return .error e

instance : Host (StateM World) where
  readText path := return (← get).files.readText path
  writeText path t := update (·.writeText path t)
  makeDirectory path := update (·.makeDirectory path)
  isDirectory path := return (← get).files.isDirectory path
  print t := modify fun world => { world with output := world.output ++ t }
  report line := modify fun world => { world with errors := world.errors ++ line ++ ['\n'] }

end World

namespace Host

variable {m : Type → Type} [Monad m] [Host m]

/-- Makes a directory, or accepts one that is there. -/
def ensureDirectory (path : Text) : m (Except FileError Unit) := do
  match ← makeDirectory path with
  | .error .alreadyExists =>
    return if ← isDirectory path then .ok () else .error .alreadyExists
  | made => return made

/-- Makes a directory, and before it those of its ancestors, given from the innermost outwards, that
are missing. -/
def ensureWithin : List Text → Text → m (Except FileError Unit)
  | [], path => ensureDirectory path
  | parent :: outer, path => do
    match ← ensureDirectory path with
    | .error .notFound =>
      match ← ensureWithin outer parent with
      | .ok () => ensureDirectory path
      | .error e => return .error e
    | made => return made

def createDirectories (path : Text) : m (Except FileError Unit) :=
  ensureWithin (Path.ancestors path) path

end Host

end NodeScaffold
