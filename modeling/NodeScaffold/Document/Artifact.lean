import NodeScaffold.Code.Block

/-! # Artifacts and their sections

An artifact is one generated document. Its sections are the places where code for the nodes goes. -/
namespace NodeScaffold
set_option autoImplicit false

inductive Artifact where
  | builders
  | equality
  | printer
  | toucher
  | tokenBoundary
deriving DecidableEq, Repr

namespace Artifact

def all : List Artifact := [builders, equality, printer, toucher, tokenBoundary]

/-- The place of an artifact in the order in which documents are generated. -/
def rank : Artifact → Nat
  | builders => 0
  | equality => 1
  | printer => 2
  | toucher => 3
  | tokenBoundary => 4

def name : Artifact → Text
  | builders => "builders"
  | equality => "equality"
  | printer => "printer"
  | toucher => "toucher"
  | tokenBoundary => "token-boundary"

def fileName : Artifact → Text
  | builders => "Builders.generated.h"
  | equality => "NodeEquality.generated.cpp"
  | printer => "NodePrinter.generated.cpp"
  | toucher => "FindSkippedTokens.generated.cpp"
  | tokenBoundary => "GetFirstToken.generated.cpp"

def ofName? (name : Text) : Option Artifact := all.find? (·.name = name)

def unknownName (name : Text) : Text :=
  Text.concat ["unknown artifact `", name, "`, expected one of: ",
    Text.join ", " (all.map Artifact.name)]

end Artifact

inductive Section where
  /-- the builder types -/
  | nodeBuilders
  /-- the factory methods -/
  | builderApi
  /-- the cases of the only switch -/
  | cases
  /-- the cases of the search for the first token -/
  | firstToken
  /-- the cases of the search for the last token -/
  | lastToken
deriving DecidableEq, Repr

namespace Section

def depth : Section → Nat
  | nodeBuilders => 1
  | builderApi => 2
  | cases | firstToken | lastToken => 3

def mark : Section → Text
  | nodeBuilders => "__NODE_BUILDERS__"
  | builderApi => "__BUILDER_API__"
  | cases => "__CASES__"
  | firstToken => "__FIRST_TOKEN_CASES__"
  | lastToken => "__LAST_TOKEN_CASES__"

end Section

/-- A piece of code for one node, with the tag that it dispatches on, if any. -/
structure Fragment where
  artifact : Artifact
  place : Section
  node : Text
  tag? : Option Text
  body : Block
deriving DecidableEq

end NodeScaffold
