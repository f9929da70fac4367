import NodeScaffold.Code.Arms

/-! # Search for the first and the last token

An arm looks at the fields of a node one after the other, in the order of declaration for the first
token and in the opposite order for the last, and returns from the first field whose check
succeeds. The checks are kept as expressions and statements, and written out at the end. -/
namespace NodeScaffold.Code.TokenSearch
set_option autoImplicit false

/-- The end of a node at which a token is looked for. -/
inductive Edge where
  | first
  | last
deriving DecidableEq, Repr

def Edge.function : Edge → Text
  | .first => "GetFirstToken"
  | .last => "GetLastToken"

inductive Member where
  | array
  | size
  | items
  | itemCount
  | separators
  | separatorCount
deriving DecidableEq, Repr

def Member.name : Member → Text
  | .array => "array"
  | .size => "size"
  | .items => "items"
  | .itemCount => "itemCount"
  | .separators => "separators"
  | .separatorCount => "separatorCount"

inductive Variable where
  | lastItem
  | lastSeparator
  | later
deriving DecidableEq, Repr

def Variable.name : Variable → Text
  | .lastItem => "a"
  | .lastSeparator => "b"
  | .later => "last"

inductive Expr where
  /-- the field under check -/
  | field
  | member (list : Expr) (m : Member)
  | element (array index : Expr)
  | zero
  | lessOne (count : Expr)
  /-- the token at an edge of a child node -/
  | search (edge : Edge) (node : Expr)
  /-- a node seen as the root type -/
  | asRoot (node : Expr)
  | read (v : Variable)
  | absentToken
deriving DecidableEq, Repr

inductive Condition where
  | isPresent (token : Expr)
  | notNull (pointer : Expr)
  | isZero (count : Expr)
  | notZero (count : Expr)
  | both (left right : Condition)
  /-- whether the first of two tokens comes later in the source -/
  | comesLater (left right : Expr)
deriving DecidableEq, Repr

inductive Statement where
  | returnIf (condition : Condition) (result : Expr)
  | declare (v : Variable) (value : Expr)
  | declareChoice (v : Variable) (condition : Condition) (yes no : Expr)
deriving DecidableEq, Repr

inductive Check where
  | single (statement : Statement)
  | guarded (condition : Condition) (statements : List Statement)
deriving DecidableEq, Repr

def Edge.element (edge : Edge) (elements count : Member) : Expr :=
  .element (.member .field elements)
    (match edge with
    | .first => .zero
    | .last => .lessOne (.member .field count))

def hasElements (count : Member) : Condition :=
  .both (.notNull .field) (.notZero (.member .field count))

/-- The check of a field. Items and separators of a list stand in two arrays, so the last token of
such a list is the later one of the last item's and the last separator. -/
def Check.of : Edge → FieldKind → Check
  | _, .token => .single (.returnIf (.isPresent .field) .field)
  | edge, .tokenList => .single (.returnIf (hasElements .size) (edge.element .array .size))
  | edge, .nodeList =>
    .single (.returnIf (hasElements .size) (.search edge (edge.element .array .size)))
  | .first, .separatedList =>
    .single (.returnIf (hasElements .itemCount)
      (.search .first (Edge.first.element .items .itemCount)))
  | .last, .separatedList =>
    .guarded (hasElements .itemCount) [
      .declare .lastItem (.search .last (Edge.last.element .items .itemCount)),
      .declareChoice .lastSeparator (.isZero (.member .field .separatorCount)) .absentToken
        (Edge.last.element .separators .separatorCount),
      .declareChoice .later (.comesLater (.read .lastItem) (.read .lastSeparator))
        (.read .lastItem) (.read .lastSeparator),
      .returnIf (.isPresent (.read .later)) (.read .later)]
  | edge, .node => .single (.returnIf (.notNull .field) (.search edge (.asRoot .field)))

def Expr.render (conv : Conventions) (name : Text) : Expr → Text
  | .field => Text.concat ["p->", name]
  | .member list m => Text.concat [list.render conv name, "->", m.name]
  | .element array index => Text.concat [array.render conv name, "[", index.render conv name, "]"]
  | .zero => "0"
  | .lessOne count => Text.concat [count.render conv name, " - 1"]
  | .search edge node => Text.concat [edge.function, "(", node.render conv name, ")"]
  | .asRoot node => Text.concat ["(", conv.rootType, "*)", node.render conv name]
  | .read v => v.name
  | .absentToken => Text.concat [conv.tokenType, "()"]

def Condition.render (conv : Conventions) (name : Text) : Condition → Text
  | .isPresent token => Text.concat [token.render conv name, ".IsValid()"]
  | .notNull pointer => Text.concat [pointer.render conv name, " != nullptr"]
  | .isZero count => Text.concat [count.render conv name, " == 0"]
  | .notZero count => Text.concat [count.render conv name, " != 0"]
  | .both left right => Text.concat [left.render conv name, " && ", right.render conv name]
  | .comesLater left right =>
    Text.concat [left.render conv name, ".GetId() > ", right.render conv name, ".GetId()"]

def Statement.line (conv : Conventions) (name : Text) : Statement → CodeLine
  | .returnIf condition result =>
    .line ["if(", condition.render conv name, ") return ", result.render conv name, ";"]
  | .declare v value => .line [conv.tokenType, " ", v.name, " = ", value.render conv name, ";"]
  | .declareChoice v condition yes no =>
    .line [conv.tokenType, " ", v.name, " = ", condition.render conv name, " ? ",
      yes.render conv name, " : ", no.render conv name, ";"]

def Check.block (conv : Conventions) (name : Text) : Check → Block
  | .single statement => [statement.line conv name]
  | .guarded condition statements =>
    [.opening ["if(", condition.render conv name, ") \x7b"]] ++
    statements.map (·.line conv name) ++ [.closing ["\x7d"]]

def Edge.order (edge : Edge) (fields : List FieldDecl) : List FieldDecl :=
  match edge with
  | .first => fields
  | .last => fields.reverse

def caseBlock (conv : Conventions) (edge : Edge) (node : NodeDecl) (tag : Text) : Block :=
  [caseOpening conv tag] ++
  (if node.isBare then [] else [castLine node.name "p" "syntaxBase"]) ++
  (edge.order node.fields).flatMap
    (fun field => (Check.of edge (field.kind conv)).block conv field.name) ++
  [.line ["return ", Expr.absentToken.render conv [], ";"], caseClosing]

end NodeScaffold.Code.TokenSearch
