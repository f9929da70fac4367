import NodeScaffold.Proofs.Numbering
import NodeScaffold.Proofs.ReaderInvariant
import NodeScaffold.Proofs.Sections

/-! # Sources one after the other

What a source declares stays when lines are added to it. If the source ends outside of every
declaration, what was added is read as if it stood alone, and so is the code written for it, section
by section. -/
namespace NodeScaffold
set_option autoImplicit false

theorem Text.split_append_sep (sep : Char) (t u : Text) :
    split sep (t ++ sep :: u) = split sep t ++ split sep u := by
  induction t with
  | nil => exact split_append_cons (by simp) u
  | cons c t ih =>
    rw [List.cons_append, split_cons, split_cons, ih]
    split
    · rfl
    · obtain ⟨piece, pieces, hPieces⟩ := List.exists_cons_of_ne_nil (split_ne_nil sep t)
      rw [hPieces]
      rfl

theorem Line.contents_append_newline (source source' : Text) :
    contents (source ++ '\n' :: source') = contents source ++ contents source' := by
  rw [contents, Text.split_append_sep, contentsOf, List.map_append, List.filter_append]
  rfl

namespace Catalog
variable (conv : Conventions) (source source' : Text)

theorem toList_ofSource_append_newline :
    (ofSource conv (source ++ '\n' :: source')).toList =
      (ofSource conv source).toList ++
        Reading.nodes conv ((Line.contents source').map (fun t => (⟨0, t⟩ : Line)) |>.foldl
          (Reading.read conv) ⟨(Reading.ofTexts conv (Line.contents source)).mode, []⟩) := by
  rw [toList_ofSource_eq_nodes, toList_ofSource_eq_nodes, Line.contents_append_newline,
    Reading.ofTexts_append, Reading.nodes_andThen]

/-- A source that ends outside of every declaration leaves no trace in what is read after it. -/
theorem toList_ofSource_append_of_between
    (h : (Reading.ofLines conv (Line.ofSource source)).mode = .between) :
    (ofSource conv (source ++ '\n' :: source')).toList =
      (ofSource conv source).toList ++ (ofSource conv source').toList := by
  have hMode : (Reading.ofTexts conv (Line.contents source)).mode = .between := by
    rw [← Reading.unnumbered_ofSource]
    exact Mode.unnumbered_eq_between_iff.mpr h
  rw [toList_ofSource_append_newline, hMode, toList_ofSource_eq_nodes conv source']
  rfl

theorem tags_ne_nil_of_mem_ofSource {node : NodeDecl} (h : node ∈ (ofSource conv source).toList) :
    node.tags ≠ [] := (wellFormed_of_mem_ofSource h).1.tags

end Catalog

theorem leadTaggedNodes_append (nodes nodes' : List NodeDecl) :
    leadTaggedNodes (nodes ++ nodes') = leadTaggedNodes nodes ++ leadTaggedNodes nodes' :=
  List.filterMap_append ..

theorem taggedNodes_append (nodes nodes' : List NodeDecl) :
    taggedNodes (nodes ++ nodes') = taggedNodes nodes ++ taggedNodes nodes' :=
  List.flatMap_append

theorem Artifact.sectionFragments_append (conv : Conventions) (nodes nodes' : List NodeDecl)
    (artifact : Artifact) (s : Section) :
    artifact.sectionFragments conv (nodes ++ nodes') s =
      artifact.sectionFragments conv nodes s ++ artifact.sectionFragments conv nodes' s := by
  unfold sectionFragments
  split <;> simp [leadTaggedNodes_append, taggedNodes_append]

/-- The nodes of a source are the first ones of every longer source. If the source ends outside of
every declaration, the nodes of the rest follow, and every section of every artifact holds the
fragments of the first part and then those of the rest. -/
theorem ofSource_concatenation (conv : Conventions) (source source' : Text) :
    (Catalog.ofSource conv source).toList <+:
      (Catalog.ofSource conv (source ++ '\n' :: source')).toList ∧
    ((Reading.ofLines conv (Line.ofSource source)).mode = .between →
      (Catalog.ofSource conv (source ++ '\n' :: source')).toList =
        (Catalog.ofSource conv source).toList ++ (Catalog.ofSource conv source').toList ∧
      ∀ artifact : Artifact, ∃ whole first second,
        artifact.fragments conv (Catalog.ofSource conv (source ++ '\n' :: source')).toList =
          .ok whole ∧
        artifact.fragments conv (Catalog.ofSource conv source).toList = .ok first ∧
        artifact.fragments conv (Catalog.ofSource conv source').toList = .ok second ∧
        ∀ s : Section, whole.filter (·.place = s) =
          first.filter (·.place = s) ++ second.filter (·.place = s)) := by
  constructor
  · rw [Catalog.toList_ofSource_append_newline]
    exact List.prefix_append _ _
  · intro hMode
    have hNodes := Catalog.toList_ofSource_append_of_between conv source source' hMode
    have hTags (t : Text) : ∀ node ∈ (Catalog.ofSource conv t).toList, node.tags ≠ [] :=
      fun node => Catalog.tags_ne_nil_of_mem_ofSource conv t
    refine ⟨hNodes, fun artifact => ?_⟩
    obtain ⟨whole, hWhole, hWholeAt⟩ :=
      Artifact.exists_fragments_eq_sections conv (hTags (source ++ '\n' :: source')) artifact
    obtain ⟨first, hFirst, hFirstAt⟩ :=
      Artifact.exists_fragments_eq_sections conv (hTags source) artifact
    obtain ⟨second, hSecond, hSecondAt⟩ :=
      Artifact.exists_fragments_eq_sections conv (hTags source') artifact
    refine ⟨whole, first, second, hWhole, hFirst, hSecond, fun s => ?_⟩
    rw [hWholeAt, hFirstAt, hSecondAt, hNodes, Artifact.sectionFragments_append]

/-- A closed declaration, and a lone abstract mark that is used up. -/
def closedSource : Text :=
  "struct SumSyntax : ExprSyntax \x7b SyntaxToken plus; \x7d;\nabstract\nstruct ExprSyntax;"

def laterSource : Text :=
  "struct NegSyntax : ExprSyntax \x7b\nVALID_SYNTAX_KINDS = \x7b\nSyntaxKind::Minus,\n\x7d;\n\x7d;"

theorem ofSource_concatenation_closedSource :
    (Reading.ofLines .standard (Line.ofSource closedSource)).mode = .between ∧
    (Catalog.ofSource .standard (closedSource ++ '\n' :: laterSource)).toList =
      [⟨Text.ofString "SumSyntax", some (Text.ofString "ExprSyntax"),
        [⟨Text.ofString "plus", Text.ofString "SyntaxToken"⟩], [Text.ofString "Sum"]⟩,
      ⟨Text.ofString "NegSyntax", some (Text.ofString "ExprSyntax"), [],
        [Text.ofString "Minus"]⟩] ∧
    ∃ whole first second,
      Artifact.builders.fragments .standard
        (Catalog.ofSource .standard (closedSource ++ '\n' :: laterSource)).toList = .ok whole ∧
      Artifact.builders.fragments .standard (Catalog.ofSource .standard closedSource).toList =
        .ok first ∧
      Artifact.builders.fragments .standard (Catalog.ofSource .standard laterSource).toList =
        .ok second ∧
      ∀ s : Section, whole.filter (·.place = s) =
        first.filter (·.place = s) ++ second.filter (·.place = s) := by
  have hMode : (Reading.ofLines .standard (Line.ofSource closedSource)).mode = .between := by
    decide +kernel
  obtain ⟨hNodes, hFragments⟩ :=
    (ofSource_concatenation .standard closedSource laterSource).2 hMode
  refine ⟨hMode, ?_, hFragments .builders⟩
  rw [hNodes]
  decide +kernel

end NodeScaffold
