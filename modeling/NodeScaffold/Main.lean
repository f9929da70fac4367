import NodeScaffold.Command.Run

/-! # The program

The command on the files and the outputs of the system it runs on. -/
namespace NodeScaffold
set_option autoImplicit false

/-- The reason behind an error of the system, which may give its number negated. -/
def FileError.ofSystem (e : IO.Error) : FileError :=
  match e with
  | .noFileOrDirectory _ _ _ => .notFound
  | .alreadyExists _ _ _ => .alreadyExists
  | .inappropriateType _ code _ =>
    if code = 20 || code = -20 then .notADirectory
    else if code = 21 || code = -21 then .isADirectory
    else .other (toString e).toList
  | .invalidArgument _ code _ =>
    if code = 36 || code = -36 then .nameTooLong else .other (toString e).toList
  | e => .other (toString e).toList

def tryIO {α : Type} (action : IO α) : IO (Except FileError α) := do
  match ← action.toBaseIO with
  | .ok a => return .ok a
  | .error e => return .error (.ofSystem e)

def readFileText (path : String) : IO (Except FileError Text) := do
  match ← tryIO (IO.FS.readBinFile path) with
  | .ok bytes =>
    match String.fromUTF8? bytes with
    | some s => return .ok s.toList
    | none => return .error .notText
  | .error e => return .error e

def isDirectoryPath (path : String) : IO Bool := do
  match ← (IO.FS.realPath path).toBaseIO with
  | .ok real => real.isDir
  | .error _ => return false

instance : Host IO where
  readText path := readFileText (String.ofList path)
  writeText path t := tryIO (IO.FS.writeFile (String.ofList path) (String.ofList t))
  makeDirectory path := tryIO (IO.FS.createDir (String.ofList path))
  isDirectory path := isDirectoryPath (String.ofList path)
  print t := IO.print (String.ofList t)
  report line := IO.eprintln (String.ofList line)

end NodeScaffold

open NodeScaffold in
def main (arguments : List String) : IO UInt32 := do
  let setting? ← IO.getEnv "RUST_LOG"
  let code ← Command.run (setting?.map String.toList) (arguments.map String.toList)
  return code.toUInt32
