import NodeScaffold.Log.Event
import NodeScaffold.Reader.Reading

/-! # Events of reading and of code generation

What is logged about a source follows from what was found in it. A duplicate name is told against
the nodes that were found before. -/
namespace NodeScaffold
set_option autoImplicit false

namespace Finding

/-- The events of a closed body, `known` being the nodes before it. -/
def closedEvents (conv : Conventions) (known : Catalog) (draft : Draft) : List Event :=
  let node := draft.closedNode conv
  (if draft.tags.isEmpty && draft.hasTagBlock then [.emptyTagBlock draft.name draft.line]
    else []) ++
  [.node node.name node.base? node.fields.length node.tags] ++
  (if node.isBare then [.noFields node.name] else []) ++
  (if known.declares node.name then [.duplicateName node.name] else [])

def events (conv : Conventions) (known : Catalog) : Finding → List Event
  | skippedLine line => [.skippedLine line.number line.text]
  | skippedHeader name line => [.skippedHeader name line]
  | closed draft => closedEvents conv known draft
  | unclosed draft => [.unclosedBody draft.name draft.line]

def eventsFrom (conv : Conventions) (known : Catalog) : List Finding → List Event
  | [] => []
  | f :: fs =>
    f.events conv known ++
      eventsFrom conv ((f.node? conv).elim known known.push) fs

end Finding

def Event.ofFindings (conv : Conventions) (findings : List Finding) : List Event :=
  Finding.eventsFrom conv ∅ findings

def Artifact.events (artifact : Artifact) (nodes : List NodeDecl) : List Event :=
  match artifact with
  | .toucher => (nodes.filter (·.isBare)).map (.noTouchArm ·.name)
  | .builders | .equality | .printer | .tokenBoundary => []

def Event.ofSource (conv : Conventions) (source : Text) : List Event :=
  let findings := Finding.ofSource conv source
  ofFindings conv findings ++
    Artifact.all.flatMap (·.events (Catalog.ofFindings conv findings).toList)

end NodeScaffold
