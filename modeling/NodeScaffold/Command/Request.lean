import NodeScaffold.Document.Artifact

/-! # Requests

A request is what a command line asks for. The arguments are read from left to right, and the first
one that settles the matter does: a question for help or for the version, or an argument that cannot
be. -/
namespace NodeScaffold
set_option autoImplicit false

structure Request where
  input : Text
  out : Text
  /-- the artifacts asked for; none stands for all -/
  only : List Artifact := []
  /-- compare with the files instead of writing them -/
  check : Bool := false
  dump : Bool := false
  verbose : Bool := false
deriving DecidableEq

/-- The selected artifacts in the order of generation, and without repetitions. -/
def Request.artifacts (request : Request) : List Artifact :=
  let selected := if request.only.isEmpty then Artifact.all else request.only
  (selected.mergeSort fun a b => a.rank ≤ b.rank).eraseReps

inductive Invocation where
  | run (request : Request)
  | version
  | help
deriving DecidableEq

inductive UsageError where
  | unknownOption (option : Text)
  | repeatedOption (option : Text)
  | missingValue (option : Text)
  | unexpectedValue (option : Text)
  | unknownArtifact (name : Text)
  | unexpectedArgument (argument : Text)
  | emptyPath
  | missingArguments
deriving DecidableEq

def UsageError.message : UsageError → Text
  | unknownOption option => Text.concat ["error: unknown option ", option]
  | repeatedOption option => Text.concat ["error: option ", option, " is given twice"]
  | missingValue option => Text.concat ["error: option ", option, " needs a value"]
  | unexpectedValue option => Text.concat ["error: option ", option, " takes no value"]
  | unknownArtifact name => Text.concat ["error: ", Artifact.unknownName name]
  | unexpectedArgument argument => Text.concat ["error: unexpected argument ", argument]
  | emptyPath => "error: a path is empty"
  | missingArguments => "error: INPUT and OUT are required"

namespace Invocation

structure Given where
  paths : List Text := []
  only : List Artifact := []
  check : Bool := false
  dump : Bool := false
  verbose : Bool := false

inductive OptionName where
  | only
  | check
  | dump
  | verbose
  | version
  | help

def longOptions : List (Text × OptionName) := [
  ("only", .only), ("check", .check), ("dump-schema", .dump), ("verbose", .verbose),
  ("version", .version), ("help", .help)]

def shortOptions : List (Char × OptionName) := [('v', .verbose), ('V', .version), ('h', .help)]

namespace Given

def addPath (given : Given) (path : Text) : Except UsageError Given :=
  if path.isEmpty then .error .emptyPath
  else if given.paths.length = 2 then .error (.unexpectedArgument path)
  else .ok { given with paths := given.paths ++ [path] }

def addArtifact (given : Given) (name : Text) : Except UsageError Given :=
  match Artifact.ofName? name with
  | some artifact => .ok { given with only := given.only ++ [artifact] }
  | none => .error (.unknownArtifact name)

/-- Goes on with an option that takes no value, or settles the matter. -/
def addOption (given : Given) (option : Text) :
    OptionName → Except UsageError (Given ⊕ Invocation)
  | .only => .error (.missingValue option)
  | .check =>
    if given.check then .error (.repeatedOption option)
    else .ok (.inl { given with check := true })
  | .dump =>
    if given.dump then .error (.repeatedOption option)
    else .ok (.inl { given with dump := true })
  | .verbose =>
    if given.verbose then .error (.repeatedOption option)
    else .ok (.inl { given with verbose := true })
  | .version => .ok (.inr .version)
  | .help => .ok (.inr .help)

def addLetters (given : Given) : List Char → Except UsageError (Given ⊕ Invocation)
  | [] => .ok (.inl given)
  | c :: letters =>
    match shortOptions.lookup c with
    | none => .error (.unknownOption ['-', c])
    | some name =>
      match given.addOption ['-', c] name with
      | .ok (.inl given) => given.addLetters letters
      | settled => settled

def toInvocation (given : Given) : Except UsageError Invocation :=
  match given.paths with
  | [input, out] => .ok (.run ⟨input, out, given.only, given.check, given.dump, given.verbose⟩)
  | _ => .error .missingArguments

/-- Reads the arguments that are left. After `--` every argument is a path, and so is a lone hyphen
anywhere. -/
def read (given : Given) : List Text → Except UsageError Invocation
  | [] => given.toInvocation
  | ['-', '-'] :: rest => rest.foldlM addPath given >>= toInvocation
  | ('-' :: '-' :: option) :: rest =>
    let name := option.takeWhile (· ≠ '=')
    let value? := if option.contains '=' then some ((option.dropWhile (· ≠ '=')).drop 1) else none
    match longOptions.lookup name, value?, rest with
    | some .only, some value, rest => do (← given.addArtifact value).read rest
    | some .only, none, value :: rest =>
      if value.head? = some '-' && value ≠ ['-'] then .error (.missingValue name)
      else do (← given.addArtifact value).read rest
    | some known, none, rest =>
      match given.addOption name known with
      | .ok (.inl given) => given.read rest
      | .ok (.inr invocation) => .ok invocation
      | .error e => .error e
    | some _, some _, _ => .error (.unexpectedValue name)
    | none, _, _ => .error (.unknownOption name)
  | ('-' :: c :: letters) :: rest =>
    match given.addLetters (c :: letters) with
    | .ok (.inl given) => given.read rest
    | .ok (.inr invocation) => .ok invocation
    | .error e => .error e
  | path :: rest => do (← given.addPath path).read rest

end Given

def ofArguments (arguments : List Text) : Except UsageError Invocation := Given.read {} arguments

end Invocation

end NodeScaffold
