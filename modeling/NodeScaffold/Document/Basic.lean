import NodeScaffold.Document.Fragments
import NodeScaffold.Document.Frame
import NodeScaffold.Node.Catalog

/-! # Documents

A document is its frame with the code of the fragments in place of the marked lines. -/
namespace NodeScaffold
set_option autoImplicit false

namespace Artifact

/-- The code of a section: its fragments in their order, with an empty line between neighbours. -/
def sectionText (artifact : Artifact) (fragments : List Fragment) (s : Section) : Text :=
  Text.join ['\n'] ((fragments.filter fun f => f.artifact = artifact && f.place = s).map fun f =>
    f.body.render s.depth)

/-- The text of a document made from fragments; those of other artifacts are left out. The sections
are filled one after the other, each in the text that the ones before have left. -/
def fill (artifact : Artifact) (fragments : List Fragment) : Text :=
  artifact.sections.foldl
    (fun t s => t.substitute s.mark (artifact.sectionText fragments s))
    artifact.frame.render

end Artifact

structure Document where
  artifact : Artifact
  text : Text
deriving DecidableEq

namespace Document

def fileName (document : Document) : Text := document.artifact.fileName

def ofCatalog (conv : Conventions) (catalog : Catalog) (artifact : Artifact) :
    Except EmissionError Document := do
  return ⟨artifact, artifact.fill (← artifact.fragments conv catalog.toList)⟩

def allOf (conv : Conventions) (catalog : Catalog) (artifacts : List Artifact) :
    Except EmissionError (List Document) :=
  artifacts.mapM (ofCatalog conv catalog)

end Document

end NodeScaffold
