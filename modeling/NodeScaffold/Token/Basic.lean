import NodeScaffold.Text.Basic

/-! # Tokens of a line

A token owns the gap in front of it, and a line of tokens owns what follows the last one, so the
line can be spelled out again from its tokens. -/
namespace NodeScaffold
set_option autoImplicit false

/-- The kinds of token. A character that starts no token is an unknown token of its own. -/
inductive TokenKind where
  | structWord | colonColon | colon | semicolon | comma
  | braceOpen | braceClose | parenOpen | parenClose
  | less | greater | star | ampersand | equals
  | ident | number | unknown
deriving DecidableEq, Repr

structure Token where
  gap : Text
  kind : TokenKind
  lexeme : Text
deriving DecidableEq

def Token.text (t : Token) : Text := t.gap ++ t.lexeme

structure TokenLine where
  tokens : List Token
  rest : Text
deriving DecidableEq

namespace TokenLine

def text (line : TokenLine) : Text := line.tokens.flatMap Token.text ++ line.rest

def kinds (line : TokenLine) : List TokenKind := line.tokens.map (·.kind)

def startsWith (line : TokenLine) (word : Text) : Bool :=
  match line.tokens.head? with
  | some t => t.kind = .ident && t.lexeme = word
  | none => false

def contains (line : TokenLine) (kind : TokenKind) : Bool := line.tokens.any (·.kind = kind)

end TokenLine

end NodeScaffold
