import NodeScaffold.Text.Blank

/-! # Cleaned lines

Every later stage sees lines without surrounding blanks and without comments. A comment starts at
the first `//`, whatever stands around it, and an empty line keeps its place so that the numbers of
the other lines do not change. -/
namespace NodeScaffold
set_option autoImplicit false

/-- A line of a header with its number, counted from one. -/
structure Line where
  number : Nat
  text : Text
deriving DecidableEq

namespace Line

def beforeComment : Text → Text
  | [] => []
  | '/' :: '/' :: _ => []
  | c :: rest => c :: beforeComment rest

def clean (t : Text) : Text := (beforeComment t.trim).trimEnd

def cleanAll (source : Text) : List Text := (source.split '\n').map clean

def cleanText (source : Text) : Text := Text.join "\n" (cleanAll source)

def numbered (texts : List Text) : List Line :=
  ((texts.zipIdx 1).map fun (t, n) => ⟨n, t⟩).filter fun line => !line.text.isEmpty

def ofSource (source : Text) : List Line := numbered (cleanAll source)

end Line

end NodeScaffold
