import NodeScaffold.Code.Construction
import NodeScaffold.Code.TokenSearch
import NodeScaffold.Document.Artifact

/-! # Fragments of the artifacts

Builders and comparison use the first tag of a node, so they need one; the other artifacts have a
case for each tag and none for a node without tags. -/
namespace NodeScaffold
set_option autoImplicit false

inductive EmissionError where
  | untagged (node : Text)
deriving DecidableEq, Repr

namespace NodeDecl

def leadTag (node : NodeDecl) : Except EmissionError Text :=
  match node.leadTag? with
  | some tag => .ok tag
  | none => .error (.untagged node.name)

end NodeDecl

namespace Artifact
open Code

def builderFragment (conv : Conventions) (node : NodeDecl) : Except EmissionError Fragment := do
  let tag ← node.leadTag
  return ⟨.builders, .nodeBuilders, node.name, none, Construction.builderType conv node tag⟩

def factoryFragment (node : NodeDecl) : Fragment :=
  ⟨.builders, .builderApi, node.name, none, Construction.factoryMethod node.name⟩

def comparisonFragment (conv : Conventions) (node : NodeDecl) : Except EmissionError Fragment := do
  let tag ← node.leadTag
  return ⟨.equality, .cases, node.name, some tag, Comparison.caseBlock conv node tag⟩

def printingFragments (conv : Conventions) (node : NodeDecl) : List Fragment :=
  node.tags.map fun tag => ⟨.printer, .cases, node.name, some tag, Printing.caseBlock conv node tag⟩

def touchingFragments (conv : Conventions) (node : NodeDecl) : List Fragment :=
  if node.isBare then []
  else node.tags.map fun tag =>
    ⟨.toucher, .cases, node.name, some tag, Touching.caseBlock conv node tag⟩

def tokenSearchFragments (conv : Conventions) (node : NodeDecl) : List Fragment :=
  node.tags.flatMap fun tag => [
    ⟨.tokenBoundary, .firstToken, node.name, some tag, TokenSearch.caseBlock conv .first node tag⟩,
    ⟨.tokenBoundary, .lastToken, node.name, some tag, TokenSearch.caseBlock conv .last node tag⟩]

def fragments (conv : Conventions) (nodes : List NodeDecl) :
    Artifact → Except EmissionError (List Fragment)
  | .builders => do return (← nodes.mapM (builderFragment conv)) ++ nodes.map factoryFragment
  | .equality => nodes.mapM (comparisonFragment conv)
  | .printer => .ok (nodes.flatMap (printingFragments conv))
  | .toucher => .ok (nodes.flatMap (touchingFragments conv))
  | .tokenBoundary => .ok (nodes.flatMap (tokenSearchFragments conv))

end Artifact

end NodeScaffold
