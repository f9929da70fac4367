import Std.Data.HashMap
import NodeScaffold.Node.Basic

/-! # Catalogs of nodes

A catalog keeps every node in the order of declaration. A name that is declared twice keeps both
nodes, and looking it up gives the first. -/
namespace NodeScaffold
set_option autoImplicit false

structure Catalog where
  nodes : Array NodeDecl := #[]
  /-- the place of the first node of each name -/
  index : Std.HashMap Text Nat := {}

namespace Catalog

def empty : Catalog := {}

instance : EmptyCollection Catalog := ⟨empty⟩

def size (catalog : Catalog) : Nat := catalog.nodes.size

def declares (catalog : Catalog) (name : Text) : Bool := catalog.index.contains name

def push (catalog : Catalog) (node : NodeDecl) : Catalog where
  nodes := catalog.nodes.push node
  index := catalog.index.insertIfNew node.name catalog.nodes.size

def get? (catalog : Catalog) (name : Text) : Option NodeDecl :=
  catalog.index[name]?.bind (catalog.nodes[·]?)

def toList (catalog : Catalog) : List NodeDecl := catalog.nodes.toList

def ofList (nodes : List NodeDecl) : Catalog := nodes.foldl push ∅

@[simp] theorem toList_empty : (∅ : Catalog).toList = [] := rfl

@[simp] theorem toList_push (catalog : Catalog) (node : NodeDecl) :
    (catalog.push node).toList = catalog.toList ++ [node] := by
  simp [toList, push]

end Catalog

end NodeScaffold
