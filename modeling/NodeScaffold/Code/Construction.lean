import NodeScaffold.Code.Arms
import NodeScaffold.Text.Capital

/-! # Construction of nodes

A node gets a builder type with a slot and a setter for each of its fields and a method that
allocates the node, and a factory method for the builder itself. -/
namespace NodeScaffold.Code.Construction
set_option autoImplicit false

def slotFor (conv : Conventions) (type : Text) : FieldKind → Text
  | .token => conv.tokenType
  | .tokenList => type
  | .nodeList => Text.concat [conv.nodeListMark, "Builder*"]
  | .separatedList => Text.concat [conv.separatedListMark, "Builder*"]
  | .node => Text.concat [(type.dropEnd? ['*']).getD type, "Builder*"]

def slotOf (conv : Conventions) (field : FieldDecl) : Text :=
  slotFor conv field.type (field.kind conv)

def slotLine (conv : Conventions) (field : FieldDecl) : CodeLine :=
  .line [slotOf conv field, " ", field.name, " \x7b\x7d;"]

def setterFor (field : Text) : Text := field.capitalize

def setter (conv : Conventions) (node : Text) (field : FieldDecl) : Block := [
  .blank,
  .opening ["inline ", node, "Builder* ", setterFor field.name, "(", slotOf conv field,
    " builder) \x7b"],
  .line [field.name, " = builder;"],
  .line ["return this;"],
  .closing ["\x7d"]]

/-- Tokens are copied, and nodes are built from their builders. -/
def assignment (conv : Conventions) (field : FieldDecl) : CodeLine :=
  match field.kind conv with
  | .token | .tokenList => .line ["retn->", field.name, " = ", field.name, ";"]
  | .nodeList | .separatedList | .node =>
    .line ["retn->", field.name, " = ", field.name, " != nullptr ? (", field.type, ")", field.name,
      "->Build() : nullptr;"]

def build (conv : Conventions) (node : NodeDecl) (tag : Text) : Block :=
  [.blank,
    .opening ["inline ", conv.rootType, "* Build() override \x7b"],
    .line [node.name, "* retn = allocator->Allocate<", node.name, ">(1);"],
    .line ["retn->_kind = ", conv.tagEnum, "::", tag, ";"]] ++
  node.fields.map (assignment conv) ++
  [.line ["return retn;"], .closing ["\x7d"]]

/-- The builder type of a node; its base is the builder of the node's base. -/
def builderType (conv : Conventions) (node : NodeDecl) (tag : Text) : Block :=
  [.opening ["struct ", node.name, "Builder : ", node.base?.getD conv.rootType, "Builder \x7b"]] ++
  (if node.isBare then [] else [.blank]) ++
  node.fields.map (slotLine conv) ++
  node.fields.flatMap (setter conv node.name) ++
  build conv node tag ++
  [.blank, .closing ["\x7d;"]]

def factoryMethod (node : Text) : Block := [
  .opening ["inline ", node, "Builder* ", node, "() \x7b"],
  .line [node, "Builder* retn = allocator->Allocate<", node, "Builder>(1);"],
  .line ["new (retn) ", node, "Builder();"],
  .line ["retn->allocator = allocator;"],
  .line ["return retn;"],
  .closing ["\x7d"]]

end NodeScaffold.Code.Construction
