import NodeScaffold.Code.Block
import NodeScaffold.Node.Basic

/-! # Arms that go through the fields

An arm is the case of a tag. It takes the node as one of its own type and treats the fields in their
order, each by the function for its kind. -/
namespace NodeScaffold.Code
set_option autoImplicit false

def caseOpening (conv : Conventions) (tag : Text) : CodeLine :=
  .opening ["case ", conv.tagEnum, "::", tag, ": \x7b"]

def caseClosing : CodeLine := .closing ["\x7d"]

def castLine (type name node : Text) : CodeLine :=
  .line [type, "* ", name, " = (", type, "*)", node, ";"]

/-- The field of an object, a list being cast to its untyped view. -/
def access (conv : Conventions) (object : Text) (field : FieldDecl) : Text :=
  let plain := Text.concat [object, "->", field.name]
  match field.kind conv with
  | .nodeList => Text.concat ["(", Conventions.untypedView conv.nodeListMark, "*)", plain]
  | .separatedList => Text.concat ["(", Conventions.untypedView conv.separatedListMark, "*)", plain]
  | .token | .tokenList | .node => plain

/-! ## Comparison

Both nodes are there and have the same tag when an arm is reached, so it compares the fields and
nothing else. -/

namespace Comparison

def function : FieldKind → Text
  | .token => "TokensEqual"
  | .tokenList => "TokenListsEqual"
  | .nodeList => "SyntaxListEqual"
  | .separatedList => "SeparatedSyntaxListEqual"
  | .node => "NodesEqual"

def compare (conv : Conventions) (field : FieldDecl) : CodeLine :=
  .line ["if(!", function (field.kind conv), "(", access conv "pA" field, ", ",
    access conv "pB" field, ", options)) return false;"]

def caseBlock (conv : Conventions) (node : NodeDecl) (tag : Text) : Block :=
  [caseOpening conv tag, castLine node.name "pA" "a", castLine node.name "pB" "b"] ++
  node.fields.map (compare conv) ++
  [.line ["return true;"], caseClosing]

end Comparison

/-! ## Printing -/

namespace Printing

def function : FieldKind → Text
  | .token => "PrintToken"
  | .tokenList => "PrintTokenList"
  | .nodeList => "PrintSyntaxList"
  | .separatedList => "PrintSeparatedSyntaxList"
  | .node => "PrintNode"

def print (conv : Conventions) (field : FieldDecl) : Block := [
  .line ["PrintFieldName(\"", field.name, "\");"],
  .line [function (field.kind conv), "(", access conv "p" field, ");"]]

def caseBlock (conv : Conventions) (node : NodeDecl) (tag : Text) : Block :=
  [caseOpening conv tag] ++
  (if node.isBare then [] else [castLine node.name "p" "syntaxBase"]) ++
  [.line ["PrintNodeHeader(\"", node.name, "\", syntaxBase);"], .line ["indent++;"]] ++
  node.fields.flatMap (print conv) ++
  [.line ["indent--;"], .line ["break;"], caseClosing]

end Printing

/-! ## Touching

An arm marks every token that a node owns. A node without fields owns none and needs no arm. -/

namespace Touching

def function : FieldKind → Text
  | .token => "TouchToken"
  | .tokenList => "TouchTokenList"
  | .nodeList => "TouchSyntaxList"
  | .separatedList => "TouchSeparatedSyntaxList"
  | .node => "TouchNode"

def touch (conv : Conventions) (field : FieldDecl) : CodeLine :=
  .line [function (field.kind conv), "(", access conv "p" field, ");"]

def caseBlock (conv : Conventions) (node : NodeDecl) (tag : Text) : Block :=
  [caseOpening conv tag, castLine node.name "p" "syntaxBase"] ++
  node.fields.map (touch conv) ++
  [.line ["break;"], caseClosing]

end Touching

end NodeScaffold.Code
