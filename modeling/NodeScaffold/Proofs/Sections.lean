import NodeScaffold.Proofs.Emission

/-! # The code of a section, node by node

Whatever loops an artifact is written in, each of its sections goes through the nodes once: with the
first tag of a node, with all of its tags, or with none. -/
namespace NodeScaffold
open Code
set_option autoImplicit false

def taggedNodes (nodes : List NodeDecl) : List (NodeDecl × Text) :=
  nodes.flatMap fun node => node.tags.map fun tag => (node, tag)

def leadTaggedNodes (nodes : List NodeDecl) : List (NodeDecl × Text) :=
  nodes.filterMap fun node => node.leadTag?.map fun tag => (node, tag)

section
variable {nodes : List NodeDecl}

theorem leadTaggedNodes_cons {node : NodeDecl} {tag : Text} (h : node.leadTag? = some tag) :
    leadTaggedNodes (node :: nodes) = (node, tag) :: leadTaggedNodes nodes := by
  simp [leadTaggedNodes, h]

theorem exists_leadTag?_eq_some {node : NodeDecl} (h : node.tags ≠ []) :
    ∃ tag, node.leadTag? = some tag := by
  obtain ⟨tag, tags, hTags⟩ := List.exists_cons_of_ne_nil h
  exact ⟨tag, by rw [NodeDecl.leadTag?, hTags]; rfl⟩

theorem map_fst_leadTaggedNodes (h : ∀ node ∈ nodes, node.tags ≠ []) :
    (leadTaggedNodes nodes).map Prod.fst = nodes := by
  induction nodes with
  | nil => rfl
  | cons node nodes ih =>
    obtain ⟨hNode, hNodes⟩ := List.forall_mem_cons.mp h
    obtain ⟨tag, hTag⟩ := exists_leadTag?_eq_some hNode
    rw [leadTaggedNodes_cons hTag, List.map_cons, ih hNodes]

/-- Writing with first tags succeeds for nodes that all have one. -/
theorem mapM_leadTag (h : ∀ node ∈ nodes, node.tags ≠ []) (write : NodeDecl → Text → Fragment) :
    (nodes.mapM fun node => node.leadTag >>= fun tag => pure (write node tag)) =
      .ok ((leadTaggedNodes nodes).map fun pair => write pair.1 pair.2) := by
  induction nodes with
  | nil => rfl
  | cons node nodes ih =>
    obtain ⟨hNode, hNodes⟩ := List.forall_mem_cons.mp h
    obtain ⟨tag, hTag⟩ := exists_leadTag?_eq_some hNode
    have hLead : node.leadTag = .ok tag := by rw [NodeDecl.leadTag, hTag]
    rw [List.mapM_cons, ih hNodes, leadTaggedNodes_cons hTag, hLead]
    rfl

end

namespace Artifact

def sectionFragments (conv : Conventions) (nodes : List NodeDecl) :
    Artifact → Section → List Fragment
  | .builders, .nodeBuilders => (leadTaggedNodes nodes).map fun pair =>
    ⟨.builders, .nodeBuilders, pair.1.name, none, Construction.builderType conv pair.1 pair.2⟩
  | .builders, .builderApi => nodes.map factoryFragment
  | .equality, .cases => (leadTaggedNodes nodes).map fun pair =>
    ⟨.equality, .cases, pair.1.name, some pair.2, Comparison.caseBlock conv pair.1 pair.2⟩
  | .printer, .cases => (taggedNodes nodes).map fun pair =>
    ⟨.printer, .cases, pair.1.name, some pair.2, Printing.caseBlock conv pair.1 pair.2⟩
  | .toucher, .cases => ((taggedNodes nodes).filter fun pair => !pair.1.isBare).map fun pair =>
    ⟨.toucher, .cases, pair.1.name, some pair.2, Touching.caseBlock conv pair.1 pair.2⟩
  | .tokenBoundary, .firstToken => (taggedNodes nodes).map fun pair =>
    ⟨.tokenBoundary, .firstToken, pair.1.name, some pair.2,
      TokenSearch.caseBlock conv .first pair.1 pair.2⟩
  | .tokenBoundary, .lastToken => (taggedNodes nodes).map fun pair =>
    ⟨.tokenBoundary, .lastToken, pair.1.name, some pair.2,
      TokenSearch.caseBlock conv .last pair.1 pair.2⟩
  | _, _ => []

variable (conv : Conventions) {nodes : List NodeDecl}

theorem filter_place_map {α : Type} {items : List α} {write : α → Fragment} (place : Section)
    (h : ∀ a, (write a).place = place) (s : Section) :
    (items.map write).filter (·.place = s) = if place = s then items.map write else [] := by
  split
  · next hPlace => exact List.filter_eq_self.mpr (by simp [h, hPlace])
  · next hPlace => exact List.filter_eq_nil_iff.mpr (by simp [h, hPlace])

theorem flatMap_printingFragments (nodes : List NodeDecl) :
    nodes.flatMap (printingFragments conv) = sectionFragments conv nodes .printer .cases := by
  simp only [sectionFragments, taggedNodes, List.map_flatMap, List.map_map]
  rfl

theorem flatMap_touchingFragments (nodes : List NodeDecl) :
    nodes.flatMap (touchingFragments conv) = sectionFragments conv nodes .toucher .cases := by
  simp only [sectionFragments, taggedNodes, List.filter_flatMap, List.map_flatMap]
  congr 1
  funext node
  have hFilter : (node.tags.map fun tag => (node, tag)).filter (fun pair => !pair.1.isBare) =
      if node.isBare then [] else node.tags.map fun tag => (node, tag) := by
    split
    · next hBare => exact List.filter_eq_nil_iff.mpr (by simp [hBare])
    · next hBare => exact List.filter_eq_self.mpr (by simp [hBare])
  rw [touchingFragments, hFilter]
  split
  · rfl
  · rw [List.map_map]
    rfl

theorem filter_flatMap_tokenSearchFragments (nodes : List NodeDecl) (s : Section) :
    (nodes.flatMap (tokenSearchFragments conv)).filter (·.place = s) =
      sectionFragments conv nodes .tokenBoundary s := by
  simp only [List.filter_flatMap, tokenSearchFragments]
  cases s <;>
    simp [sectionFragments, taggedNodes, List.map_eq_flatMap, List.flatMap_assoc]

/-- For nodes that all have a tag, the fragments of an artifact are those of its sections. -/
theorem exists_fragments_eq_sections (h : ∀ node ∈ nodes, node.tags ≠ []) (artifact : Artifact) :
    ∃ fragments, artifact.fragments conv nodes = .ok fragments ∧
      ∀ s, fragments.filter (·.place = s) = sectionFragments conv nodes artifact s := by
  cases artifact with
  | builders =>
    have hBuilders : nodes.mapM (builderFragment conv) = .ok _ := mapM_leadTag h _
    refine ⟨_, by rw [Artifact.fragments, hBuilders]; rfl, fun s => ?_⟩
    rw [List.filter_append, filter_place_map .nodeBuilders (fun _ => rfl),
      @filter_place_map _ nodes factoryFragment .builderApi (fun _ => rfl)]
    cases s <;> simp [sectionFragments]
  | equality =>
    have hCases : nodes.mapM (comparisonFragment conv) = .ok _ := mapM_leadTag h _
    refine ⟨_, hCases, fun s => ?_⟩
    rw [filter_place_map .cases (fun _ => rfl)]
    cases s <;> simp [sectionFragments]
  | printer =>
    refine ⟨_, rfl, fun s => ?_⟩
    rw [flatMap_printingFragments, sectionFragments,
      filter_place_map .cases (fun _ => rfl)]
    cases s <;> simp [sectionFragments]
  | toucher =>
    refine ⟨_, rfl, fun s => ?_⟩
    rw [flatMap_touchingFragments, sectionFragments,
      filter_place_map .cases (fun _ => rfl)]
    cases s <;> simp [sectionFragments]
  | tokenBoundary => exact ⟨_, rfl, filter_flatMap_tokenSearchFragments conv nodes⟩

end Artifact

end NodeScaffold
