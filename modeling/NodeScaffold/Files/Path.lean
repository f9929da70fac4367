import NodeScaffold.Text.Basic

/-! # Paths

A path is a text. Its parts are what stands between slashes; its components leave out what does not
change where it leads when every part is there. -/
namespace NodeScaffold.Path
set_option autoImplicit false

def isAbsolute (path : Text) : Bool := path.head? = some '/'

def endsInSlash (path : Text) : Bool := path.getLast? = some '/'

def here : Text := "."

def above : Text := ".."

def nameLimit : Nat := 255

/-- The least number of bytes that a path cannot have. -/
def lengthLimit : Nat := 4096

def parts (path : Text) : List Text := (path.split '/').filter (!·.isEmpty)

/-- The parts without those that stay in place; one at the start of a relative path is kept. -/
def components (path : Text) : List Text :=
  match parts path with
  | [] => []
  | first :: others =>
    let others := others.filter (· ≠ here)
    if first = here && isAbsolute path then others else first :: others

def ofComponents (absolute : Bool) (names : List Text) : Text :=
  (if absolute then ['/'] else []) ++ Text.join ['/'] names

/-- The directories that a path runs through, from the innermost outwards. -/
def ancestors (path : Text) : List Text :=
  let names := components path
  let outer := (List.range names.length).reverse.map names.take
  (outer.filter fun ancestor => isAbsolute path || !ancestor.isEmpty).map
    (ofComponents (isAbsolute path))

def join (directory file : Text) : Text :=
  if endsInSlash directory then directory ++ file else directory ++ '/' :: file

/-- Whether a path is the hyphen that stands for the standard output. -/
def isStandardOutput (path : Text) : Bool := !isAbsolute path && components path = [['-']]

end NodeScaffold.Path
