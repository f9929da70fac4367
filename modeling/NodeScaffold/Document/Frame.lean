import NodeScaffold.Document.Artifact

/-! # Frames of the documents

A frame is the fixed text of a document, with a marked line for each section. -/
namespace NodeScaffold
set_option autoImplicit false

inductive FramePart where
  | row (depth : Nat) (text : Text)
  | slot (s : Section)
deriving DecidableEq

namespace FramePart

def render : FramePart → Text
  | row depth text => Row.render 0 ⟨depth, text⟩
  | slot s => s.mark ++ ['\n']

def section? : FramePart → Option Section
  | row _ _ => none
  | slot s => some s

def gap : FramePart := row 0 []

end FramePart

abbrev Frame := List FramePart

namespace Frame
open FramePart

def notice : Text := "// @generated by nodegen. Do not edit by hand."

def render (frame : Frame) : Text := frame.flatMap FramePart.render

def sections (frame : Frame) : List Section := frame.filterMap section?

def builders : Frame := [
  row 0 notice,
  row 0 "#include \"./Builders.h\"",
  gap,
  row 0 "namespace Alchemy::Compilation \x7b",
  gap,
  slot .nodeBuilders,
  row 1 "struct Builder : BuilderBase \x7b",
  gap,
  row 2 "explicit Builder(LinearAllocator * allocator) : BuilderBase((allocator)) \x7b\x7d",
  gap,
  slot .builderApi,
  row 1 "\x7d;",
  gap,
  row 0 "\x7d"]

def equality : Frame := [
  row 0 notice,
  row 0 "#include \"./NodeEquality.h\"",
  gap,
  row 0 "namespace Alchemy::Compilation \x7b",
  gap,
  row 1 "bool NodesEqual(SyntaxBase * a, SyntaxBase * b, NodeEqualityOptions options) \x7b",
  gap,
  row 2 "if(a == nullptr && b == nullptr) \x7b",
  row 3 "return true;",
  row 2 "\x7d",
  gap,
  row 2 "if(a == nullptr || b == nullptr) \x7b",
  row 3 "return false;",
  row 2 "\x7d",
  gap,
  row 2 "if(a->GetKind() != b->GetKind()) \x7b",
  row 3 "return false;",
  row 2 "\x7d",
  gap,
  row 2 "switch(a->GetKind()) \x7b",
  slot .cases,
  row 3 "default: \x7b",
  row 4 "UNREACHABLE(\"NodesEqual\");",
  row 4 "return true;",
  row 3 "\x7d",
  gap,
  row 2 "\x7d",
  gap,
  row 1 "\x7d",
  gap,
  row 0 "\x7d"]

def printer : Frame := [
  row 0 notice,
  row 0 "#include \"../Src/Parsing3/NodePrinter.h\"",
  gap,
  row 0 "namespace Alchemy::Compilation \x7b",
  gap,
  row 1 "void NodePrinter::PrintNode(SyntaxBase* syntaxBase) \x7b",
  gap,
  row 2 "if (syntaxBase == nullptr) \x7b",
  row 3 "PrintLine(\"nullptr\");",
  row 3 "return;",
  row 2 "\x7d",
  gap,
  row 2 "switch (syntaxBase->GetKind()) \x7b",
  slot .cases,
  row 3 "default: \x7b",
  row 4 "break;",
  row 3 "\x7d",
  gap,
  row 2 "\x7d",
  row 1 "\x7d",
  row 0 "\x7d"]

def toucher : Frame := [
  row 0 notice,
  row 0 "#include \"../Src/Parsing3/FindSkippedTokens.h\"",
  gap,
  row 0 "namespace Alchemy::Compilation \x7b",
  gap,
  row 1 "void FindSkippedTokens::TouchNode(SyntaxBase * syntaxBase) \x7b",
  gap,
  row 2 "if(syntaxBase == nullptr) \x7b",
  row 3 "return;",
  row 2 "\x7d",
  gap,
  row 2 "switch(syntaxBase->GetKind()) \x7b",
  slot .cases,
  row 3 "default: \x7b",
  row 4 "return;",
  row 3 "\x7d",
  gap,
  row 2 "\x7d",
  row 1 "\x7d",
  gap,
  row 0 "\x7d"]

def searchFunction (heading : Text) (s : Section) : Frame := [
  row 1 heading,
  gap,
  row 2 "if(syntaxBase == nullptr) \x7b",
  row 3 "return SyntaxToken();",
  row 2 "\x7d",
  gap,
  row 2 "switch(syntaxBase->GetKind()) \x7b",
  slot s,
  row 3 "default: \x7b",
  row 4 "return SyntaxToken();",
  row 3 "\x7d",
  gap,
  row 2 "\x7d",
  gap,
  row 1 "\x7d",
  gap]

def tokenBoundary : Frame :=
  [row 0 notice,
    row 0 "#include \"../Src/Parsing3/SyntaxBase.h\"",
    row 0 "#include \"../Src/Parsing3/SyntaxNodes.h\"",
    gap,
    row 0 "namespace Alchemy::Compilation \x7b",
    gap] ++
  searchFunction "SyntaxToken GetFirstToken(SyntaxBase * syntaxBase) \x7b" .firstToken ++
  searchFunction "SyntaxToken GetLastToken(SyntaxBase * syntaxBase) \x7b" .lastToken ++
  [row 0 "\x7d"]

end Frame

def Artifact.frame : Artifact → Frame
  | .builders => Frame.builders
  | .equality => Frame.equality
  | .printer => Frame.printer
  | .toucher => Frame.toucher
  | .tokenBoundary => Frame.tokenBoundary

def Artifact.sections (artifact : Artifact) : List Section := artifact.frame.sections

end NodeScaffold
