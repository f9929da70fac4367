import NodeScaffold.Node.Dump
import NodeScaffold.Token.Basic

/-! # Tokens as they are shown

A line of tokens is shown as a dump of the kinds and lexemes, or as spans, which say where in the
line each lexeme stands. -/
namespace NodeScaffold
set_option autoImplicit false

def TokenKind.label : TokenKind → Text
  | structWord => "Struct"
  | colonColon => "ColonColon"
  | colon => "Colon"
  | semicolon => "Semi"
  | comma => "Comma"
  | braceOpen => "BraceL"
  | braceClose => "BraceR"
  | parenOpen => "ParenL"
  | parenClose => "ParenR"
  | less => "Lt"
  | greater => "Gt"
  | star => "Star"
  | ampersand => "Amp"
  | equals => "Eq"
  | ident => "Ident"
  | number => "Number"
  | unknown => "Error"

def Token.dump (t : Token) : Dump := .call t.kind.label [.text t.lexeme]

def TokenLine.dump (line : TokenLine) : Dump := .list (line.tokens.map Token.dump)

/-- A kind and lexeme with the byte offsets at which the lexeme starts and stops. -/
structure Span where
  kind : TokenKind
  start : Nat
  stop : Nat
  lexeme : Text
deriving DecidableEq

namespace TokenLine

def spansFrom (offset : Nat) : List Token → List Span
  | [] => []
  | t :: ts =>
    let start := offset + t.gap.byteSize
    let stop := start + t.lexeme.byteSize
    ⟨t.kind, start, stop, t.lexeme⟩ :: spansFrom stop ts

def spans (line : TokenLine) : List Span := spansFrom 0 line.tokens

end TokenLine

end NodeScaffold
