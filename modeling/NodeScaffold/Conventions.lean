import NodeScaffold.Text.Basic

/-! # Naming conventions of a header

The words by which a header marks its declarations and the names that the generated code refers to.
Reading, classification and every kind of generated code take them from the same place. -/
namespace NodeScaffold
set_option autoImplicit false

structure Conventions where
  /-- marks a declaration as abstract, alone on the line before it or in front of it -/
  abstractWord : Text := "abstract"
  /-- starts a constructor, which ends the fields -/
  constructorWord : Text := "explicit"
  /-- what a line that closes a body or a tag block starts with -/
  closeMark : Text := "\x7d;"
  /-- opens a block of tags -/
  tagBlockWord : Text := "VALID_SYNTAX_KINDS"
  /-- the enumeration that the tags belong to -/
  tagEnum : Text := "SyntaxKind"
  /-- ends an entry of a tag block -/
  tagSeparator : Char := ','
  /-- what a node name loses to become its implied tag -/
  nodeEnding : Text := "Syntax"
  /-- the type of a single token -/
  tokenType : Text := "SyntaxToken"
  /-- what the type of a token sequence starts with -/
  tokenListMark : Text := "TokenList"
  /-- what the type of a node list starts with -/
  nodeListMark : Text := "SyntaxList"
  /-- what the type of a list with separators starts with -/
  separatedListMark : Text := "SeparatedSyntaxList"
  /-- the type that every node derives from -/
  rootType : Text := "SyntaxBase"

namespace Conventions

def standard : Conventions := {}

/-- The tag of a node without a tag block: its name without the usual ending. -/
def impliedTag (conv : Conventions) (name : Text) : Text :=
  (name.dropEnd? conv.nodeEnding).getD name

/-- What follows the qualifier of a tag, on a line that starts with one. -/
def unqualified? (conv : Conventions) (t : Text) : Option Text :=
  (t.dropHead? conv.tagEnum).bind (Text.dropHead? · "::")

/-- The view of a list type that leaves its element type open. -/
def untypedView (listMark : Text) : Text := listMark ++ Text.ofString "Untyped"

end Conventions

end NodeScaffold
