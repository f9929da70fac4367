import NodeScaffold.Line
import NodeScaffold.Node.Basic

/-! # Where a reader stands and what it finds

Between two lines a reader is outside of every declaration, behind a lone abstract mark, in the body
of a declaration or in the tag block of a body. -/
namespace NodeScaffold
set_option autoImplicit false

/-- A declaration whose body is still being read. -/
structure Draft where
  name : Text
  base : Text
  fields : List FieldDecl := []
  tags : List Text := []
  /-- whether a tag block was opened, even an empty one -/
  hasTagBlock : Bool := false
  /-- the line of the header -/
  line : Nat
deriving DecidableEq

namespace Draft

def node (draft : Draft) : NodeDecl := ⟨draft.name, some draft.base, draft.fields, draft.tags⟩

/-- The node once its body is closed; it has its implied tag if no tag was read. -/
def closedNode (conv : Conventions) (draft : Draft) : NodeDecl :=
  if draft.tags.isEmpty then { draft.node with tags := [conv.impliedTag draft.name] }
  else draft.node

def addField (draft : Draft) (field : FieldDecl) : Draft :=
  { draft with fields := draft.fields ++ [field] }

def addTag (draft : Draft) (tag : Text) : Draft := { draft with tags := draft.tags ++ [tag] }

end Draft

inductive Mode where
  | between
  | guarded
  | body (draft : Draft)
  | tagBlock (draft : Draft)
deriving DecidableEq

inductive Finding where
  /-- a line left out because of the lone abstract mark before it -/
  | skippedLine (line : Line)
  /-- a header left out because of the abstract mark in front of it -/
  | skippedHeader (name : Text) (line : Nat)
  /-- a body that was closed -/
  | closed (draft : Draft)
  /-- a body that the source ends in -/
  | unclosed (draft : Draft)
deriving DecidableEq

end NodeScaffold
