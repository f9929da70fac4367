import NodeScaffold.Conventions
import NodeScaffold.Text.Blank

/-! # Node declarations and their fields

How generated code treats a field hangs on its kind alone, and its kind on its type alone. -/
namespace NodeScaffold
set_option autoImplicit false

/-- A declared field; its type is kept without blanks. -/
structure FieldDecl where
  name : Text
  type : Text
deriving DecidableEq

def FieldDecl.declare (name written : Text) : FieldDecl := ⟨name, written.withoutBlanks⟩

inductive FieldKind where
  /-- one token, held by value -/
  | token
  /-- a sequence of tokens -/
  | tokenList
  /-- a list of child nodes -/
  | nodeList
  /-- child nodes and the separators between them, in two arrays -/
  | separatedList
  /-- a pointer to one child node -/
  | node
deriving DecidableEq, Repr

/-- The kind that a type stands for. The mark of separated lists is tried before that of plain ones,
and both before the token type; what fits nothing is a pointer to a node. -/
def FieldKind.ofType (conv : Conventions) (type : Text) : FieldKind :=
  if conv.separatedListMark.isPrefixOf type then .separatedList
  else if conv.nodeListMark.isPrefixOf type then .nodeList
  else if type = conv.tokenType then .token
  else if conv.tokenListMark.isPrefixOf type then .tokenList
  else .node

def FieldDecl.kind (field : FieldDecl) (conv : Conventions) : FieldKind :=
  FieldKind.ofType conv field.type

/-- A concrete node type. The order of the fields is the order of traversal; the first tag leads the
others. -/
structure NodeDecl where
  name : Text
  base? : Option Text
  fields : List FieldDecl
  tags : List Text
deriving DecidableEq

namespace NodeDecl

/-- The tag that builders stamp and that equality dispatches on. -/
def leadTag? (node : NodeDecl) : Option Text := node.tags.head?

def isBare (node : NodeDecl) : Bool := node.fields.isEmpty

end NodeDecl

end NodeScaffold
