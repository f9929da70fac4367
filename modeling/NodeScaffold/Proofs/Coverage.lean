import NodeScaffold.Proofs.CaseLines
import NodeScaffold.Proofs.Sections
import NodeScaffold.Proofs.Stamps

/-! # Coverage of the tags

Every node that a source declares is dispatched on with all of its tags wherever it has something to
show, and builders stamp the tag that comparison dispatches on. -/
namespace NodeScaffold
open Code
set_option autoImplicit false

namespace Dispatch
variable (conv : Conventions) {nodes : List NodeDecl}

def pairs (nodes : List NodeDecl) : Dispatch → List (NodeDecl × Text)
  | comparison => leadTaggedNodes nodes
  | printing | search _ => taggedNodes nodes
  | touching => (taggedNodes nodes).filter fun pair => !pair.1.isBare

/-- The fragment of an arm. Nothing after its first line depends on the tag. -/
def fragment (d : Dispatch) (pair : NodeDecl × Text) : Fragment :=
  ⟨d.artifact, d.place, pair.1.name, some pair.2, caseOpening conv pair.2 :: d.armBody conv pair.1⟩

theorem sectionFragments_eq (d : Dispatch) (nodes : List NodeDecl) :
    d.artifact.sectionFragments conv nodes d.place = (d.pairs nodes).map (d.fragment conv) := by
  cases d with
  | comparison | printing | touching => rfl
  | search edge => cases edge <;> rfl

theorem mem_of_mem_pairs {d : Dispatch} {pair : NodeDecl × Text} (h : pair ∈ d.pairs nodes) :
    pair.1 ∈ nodes ∧ pair.2 ∈ pair.1.tags := by
  have hTagged {pair : NodeDecl × Text} (h : pair ∈ taggedNodes nodes) :
      pair.1 ∈ nodes ∧ pair.2 ∈ pair.1.tags := by
    obtain ⟨node, hNode, hPair⟩ := List.mem_flatMap.mp h
    obtain ⟨tag, hTag, rfl⟩ := List.mem_map.mp hPair
    exact ⟨hNode, hTag⟩
  cases d with
  | comparison =>
    obtain ⟨node, hNode, hPair⟩ := List.mem_filterMap.mp h
    obtain ⟨tag, hTag, rfl⟩ := Option.map_eq_some_iff.mp hPair
    exact ⟨hNode, List.mem_of_mem_head? hTag⟩
  | printing | search _ => exact hTagged h
  | touching => exact hTagged (List.mem_filter.mp h).1

theorem exists_place_eq {d : Dispatch} {s : Section} (h : s ∈ d.artifact.sections) :
    ∃ d' : Dispatch, d'.artifact = d.artifact ∧ d'.place = s := by
  cases d with
  | comparison => exact ⟨comparison, rfl, (List.mem_singleton.mp h).symm⟩
  | printing => exact ⟨printing, rfl, (List.mem_singleton.mp h).symm⟩
  | touching => exact ⟨touching, rfl, (List.mem_singleton.mp h).symm⟩
  | search edge =>
    rcases List.mem_cons.mp h with rfl | h
    · exact ⟨search .first, rfl, rfl⟩
    · exact ⟨search .last, rfl, (List.mem_singleton.mp h).symm⟩

end Dispatch

theorem Conventions.oneLine_standard : Conventions.standard.OneLine := by
  constructor <;> simp [Conventions.standard]

section
variable {catalog : Catalog}

/-- The fragments of an output are one arm for each of its nodes and tags, and the text of its
document shows the first lines of these arms as cases and no others. -/
def Dispatch.Covers (d : Dispatch) (catalog : Catalog) : Prop :=
  ∃ fragments text,
    d.artifact.fragments .standard catalog.toList = .ok fragments ∧
    (∀ fragment ∈ fragments, fragment.place ∈ d.artifact.sections) ∧
    fragments.filter (·.place = d.place) = (d.pairs catalog.toList).map (d.fragment .standard) ∧
    Document.ofCatalog .standard catalog d.artifact = .ok ⟨d.artifact, text⟩ ∧
    casesBySwitch (text.split '\n') = [] :: d.artifact.sections.map fun s =>
      (fragments.filter (·.place = s)).flatMap fun fragment => fragment.lines.take 1

/-- Every node has one builder and one factory, and the builder stamps the tag that comparison
dispatches on. -/
def Catalog.BuildersMatch (catalog : Catalog) : Prop :=
  ∃ builders factories,
    Artifact.builders.fragments .standard catalog.toList = .ok (builders ++ factories) ∧
    builders.map (fun fragment => (fragment.place, fragment.node)) =
      catalog.toList.map (fun node => (.nodeBuilders, node.name)) ∧
    factories.map (fun fragment => (fragment.place, fragment.node)) =
      catalog.toList.map (fun node => (.builderApi, node.name)) ∧
    builders.map (fun fragment => fragment.body.stamps) =
      (Dispatch.comparison.pairs catalog.toList).map fun pair => [pair.2]

theorem Dispatch.isArm_of_mem_fragments {nodes : List NodeDecl} {d : Dispatch}
    {fragments : List Fragment} {fragment : Fragment} (hNodes : ∀ node ∈ nodes, isWord node.name)
    (hSections : ∀ s, fragments.filter (·.place = s) =
      d.artifact.sectionFragments .standard nodes s)
    (hPlace : fragment.place ∈ d.artifact.sections) (h : fragment ∈ fragments) :
    IsArm fragment.lines := by
  obtain ⟨d', hArtifact, hSame⟩ := exists_place_eq hPlace
  have hMem : fragment ∈ fragments.filter (·.place = d'.place) :=
    List.mem_filter.mpr ⟨h, by simp [hSame]⟩
  rw [hSections, ← hArtifact, sectionFragments_eq] at hMem
  obtain ⟨pair, hPair, rfl⟩ := List.mem_map.mp hMem
  exact isArm_lines (d'.isInner_armBody (hNodes _ (mem_of_mem_pairs hPair).1)) _ _

theorem Dispatch.covers (h : ∀ node ∈ catalog.toList, node.WellFormed ∧ node.OneLine)
    (d : Dispatch) : d.Covers catalog := by
  obtain ⟨fragments, hFragments, hSections⟩ := Artifact.exists_fragments_eq_sections .standard
    (fun node hNode => (h node hNode).1.tags) d.artifact
  have hFits : ∀ fragment ∈ fragments, fragment.Fits d.artifact := by
    intro fragment hFragment
    exact Artifact.fits_fragments Conventions.oneLine_standard (fun node hNode => (h node hNode).2)
      hFragments hFragment
  have hArms : ∀ fragment ∈ fragments, IsArm fragment.lines := by
    intro fragment hFragment
    exact isArm_of_mem_fragments (fun node hNode => isWord_of_isName (h node hNode).1.name)
      hSections (hFits fragment hFragment).place hFragment
  have hSwitches : d.artifact ≠ .builders := by cases d <;> simp [artifact]
  refine ⟨fragments, _, hFragments, fun fragment hFragment => (hFits fragment hFragment).place,
    ?_, Document.ofCatalog_eq_ok hFragments, Artifact.casesBySwitch_fill hSwitches hFits hArms⟩
  rw [hSections, sectionFragments_eq]

theorem Catalog.buildersMatch (h : ∀ node ∈ catalog.toList, node.WellFormed) :
    catalog.BuildersMatch := by
  have hTags : ∀ node ∈ catalog.toList, node.tags ≠ [] := fun node hNode => (h node hNode).tags
  have hBuilders : catalog.toList.mapM (Artifact.builderFragment .standard) = .ok _ :=
    mapM_leadTag hTags _
  refine ⟨_, _, by rw [Artifact.fragments, hBuilders]; rfl, ?_, ?_, ?_⟩
  · conv_rhs => rw [← map_fst_leadTaggedNodes hTags]
    rw [List.map_map, List.map_map]
    rfl
  · rw [List.map_map]
    rfl
  · rw [List.map_map]
    refine List.map_congr_left fun pair hPair => ?_
    have hNode := h _ (Dispatch.mem_of_mem_pairs (d := .comparison) hPair).1
    exact Code.Construction.stamps_builderType hNode pair.2

end

end NodeScaffold
