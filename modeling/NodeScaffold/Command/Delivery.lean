import NodeScaffold.Command.Host
import NodeScaffold.Document.Basic
import NodeScaffold.Log.Filter

/-! # Delivery of documents

Generated documents are printed, written into a directory or compared with the files there. Writing
goes through the documents in their order and stops at the first that fails; comparing goes through
all of them before it complains. -/
namespace NodeScaffold
set_option autoImplicit false

inductive Failure where
  | cannotRead (path : Text) (reason : FileError)
  | cannotCreate (path : Text) (reason : FileError)
  | cannotWrite (path : Text) (reason : FileError)
  /-- the standard output holds nothing to compare with -/
  | nothingToCheck
  | outOfDate (files : List Text)
  | cannotGenerate (reason : EmissionError)
deriving DecidableEq

namespace Failure

def message : Failure → Text
  | cannotRead path _ => Text.concat ["failed to read ", path]
  | cannotCreate path _ => Text.concat ["failed to create ", path]
  | cannotWrite path _ => Text.concat ["failed to write ", path]
  | nothingToCheck => "--check needs an output directory"
  | outOfDate files =>
    Text.concat ["generated documents are out of date: ", Text.join ", " files,
      " (rerun without --check)"]
  | cannotGenerate (.untagged node) => Text.concat ["node without a tag: ", node]

def cause? : Failure → Option Text
  | cannotRead _ reason | cannotCreate _ reason | cannotWrite _ reason => some reason.message
  | nothingToCheck | outOfDate _ | cannotGenerate _ => none

def lines (failure : Failure) : List Text :=
  Text.concat ["Error: ", failure.message] ::
    match failure.cause? with
    | some cause => [[], "Caused by:", Text.concat ["    ", cause]]
    | none => []

end Failure

variable {m : Type → Type} [Monad m] [Host m]

namespace Command

def log (filter : Filter) (event : Event) : ExceptT Failure m Unit := do
  if filter.allows event then Host.report event.render

def attempt {α : Type} (failure : FileError → Failure) (operation : m (Except FileError α)) :
    ExceptT Failure m α := do
  match ← operation with
  | .ok a => return a
  | .error e => throw (failure e)

end Command

namespace Document
open Command

def pathIn (document : Document) (out : Text) : Text := Path.join out document.fileName

def printAll (documents : List Document) : ExceptT Failure m Unit :=
  documents.forM fun document => Host.print document.text

def write (filter : Filter) (out : Text) (document : Document) : ExceptT Failure m Unit := do
  let path := document.pathIn out
  attempt (.cannotWrite path) (Host.writeText path document.text)
  log filter (.wrote document.artifact path)

def writeAll (filter : Filter) (out : Text) (documents : List Document) :
    ExceptT Failure m Unit := do
  attempt (.cannotCreate out) (Host.createDirectories out)
  documents.forM (write filter out)

/-- Whether the file of a document is missing or holds another text. -/
def isStale (filter : Filter) (out : Text) (document : Document) : ExceptT Failure m Bool := do
  let path := document.pathIn out
  match ← Host.readText path with
  | .ok t =>
    if t = document.text then do
      log filter (.upToDate path)
      return false
    else return true
  | .error .notFound => return true
  | .error e => throw (.cannotRead path e)

def staleFiles (filter : Filter) (out : Text) : List Document → ExceptT Failure m (List Text)
  | [] => return []
  | document :: documents => do
    let stale ← document.isStale filter out
    let others ← staleFiles filter out documents
    return if stale then document.fileName :: others else others

def checkAll (filter : Filter) (out : Text) (documents : List Document) :
    ExceptT Failure m Unit := do
  match ← staleFiles filter out documents with
  | [] => log filter (.allUpToDate documents.length)
  | stale => throw (.outOfDate stale)

end Document

end NodeScaffold
