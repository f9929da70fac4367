import NodeScaffold.Proofs.Coverage
import NodeScaffold.Proofs.NestedCode

/-! # Nesting of the documents

The rows of a frame stand as their braces say, and its slots lie where as many braces are open as
their sections are deep. So the code of the sections can be put in, and the document is balanced and
indented by its nesting from the first line to the last. -/
namespace NodeScaffold
open Text
set_option autoImplicit false

/-- A node with words for names, and without blanks, braces and line breaks where they could
show. -/
structure NodeDecl.BraceFree (node : NodeDecl) : Prop where
  tagged : node.tags ≠ []
  name : isWord node.name
  base : ∀ base ∈ node.base?, isWord base
  fieldNames : ∀ field ∈ node.fields, isWord field.name
  types : ∀ field ∈ node.fields, ∀ c ∈ field.type, isBlank c = false ∧ c ≠ '{' ∧ c ≠ '}'
  tags : ∀ tag ∈ node.tags, '{' ∉ tag ∧ '}' ∉ tag ∧ '\n' ∉ tag

namespace NodeDecl.BraceFree
variable {node : NodeDecl} (h : node.BraceFree)
include h

theorem isClosed_tag {tag : Text} (hTag : tag ∈ node.tags) : tag.IsClosed :=
  isClosed_of_notMem (h.tags tag hTag).1 (h.tags tag hTag).2.1

theorem oneLine : node.OneLine := by
  have hWord {t : Text} (ht : isWord t) : '\n' ∉ t := by
    intro hMem
    exact absurd (solid_of_isWord ht _ hMem).1 (by decide)
  refine ⟨hWord h.name, fun base hBase => hWord (h.base base hBase), fun field hField => ⟨?_, ?_⟩,
    fun tag hTag => (h.tags tag hTag).2.2⟩
  · exact hWord (h.fieldNames field hField)
  · intro hMem
    exact absurd (h.types field hField _ hMem).1 (by decide)

end NodeDecl.BraceFree

namespace Artifact
open Code

/-- Whatever an artifact writes for such nodes is neat. -/
theorem neat_fragments {nodes : List NodeDecl} (hNodes : ∀ node ∈ nodes, node.BraceFree)
    {artifact : Artifact} {fragments : List Fragment} {fragment : Fragment}
    (h : artifact.fragments .standard nodes = .ok fragments) (hFragment : fragment ∈ fragments) :
    fragment.body.Neat := by
  cases artifact with
  | builders =>
    rw [Artifact.fragments] at h
    cases hBuilders : nodes.mapM (builderFragment .standard) with
    | error e => simp [bind, Except.bind, hBuilders] at h
    | ok builders =>
      rw [hBuilders] at h
      cases h
      rcases List.mem_append.mp hFragment with hMem | hMem
      · obtain ⟨node, hNode, hOk⟩ := exists_mem_of_mapM_eq_ok hBuilders hMem
        obtain ⟨tag, hTag, rfl⟩ := exists_mem_tags_of_bind_leadTag hOk
        have hFree := hNodes node hNode
        exact Construction.neat_builderType hFree.name hFree.base hFree.fieldNames hFree.types
          (hFree.isClosed_tag hTag)
      · obtain ⟨node, hNode, rfl⟩ := List.mem_map.mp hMem
        exact Construction.neat_factoryMethod (hNodes node hNode).name
  | equality =>
    obtain ⟨node, hNode, hOk⟩ := exists_mem_of_mapM_eq_ok h hFragment
    obtain ⟨tag, hTag, rfl⟩ := exists_mem_tags_of_bind_leadTag hOk
    have hFree := hNodes node hNode
    exact Comparison.neat_caseBlock hFree.name hFree.fieldNames (hFree.isClosed_tag hTag)
  | printer =>
    cases h
    obtain ⟨node, hNode, hMem⟩ := List.mem_flatMap.mp hFragment
    obtain ⟨tag, hTag, rfl⟩ := List.mem_map.mp hMem
    have hFree := hNodes node hNode
    exact Printing.neat_caseBlock hFree.name hFree.fieldNames (hFree.isClosed_tag hTag)
  | toucher =>
    cases h
    obtain ⟨node, hNode, hMem⟩ := List.mem_flatMap.mp hFragment
    rw [touchingFragments] at hMem
    split at hMem
    · cases hMem
    · obtain ⟨tag, hTag, rfl⟩ := List.mem_map.mp hMem
      have hFree := hNodes node hNode
      exact Touching.neat_caseBlock hFree.name hFree.fieldNames (hFree.isClosed_tag hTag)
  | tokenBoundary =>
    cases h
    obtain ⟨node, hNode, hMem⟩ := List.mem_flatMap.mp hFragment
    obtain ⟨tag, hTag, hEdge⟩ := List.mem_flatMap.mp hMem
    have hFree := hNodes node hNode
    have hBlock (edge : TokenSearch.Edge) := TokenSearch.neat_caseBlock edge hFree.name
      hFree.fieldNames (hFree.isClosed_tag hTag)
    simp only [List.mem_cons, List.not_mem_nil, or_false] at hEdge
    rcases hEdge with rfl | rfl
    · exact hBlock .first
    · exact hBlock .last

end Artifact

theorem nested_sectionLines {fragments : List Fragment}
    (h : ∀ fragment ∈ fragments, fragment.body.Neat) (s : Section) :
    Nested s.depth (sectionLines fragments s) s.depth := by
  apply Nested.intercalate
  intro group hGroup
  obtain ⟨fragment, hFragment, rfl⟩ := List.mem_map.mp hGroup
  obtain ⟨hMem, hPlace⟩ := List.mem_filter.mp hFragment
  have hNeat := h fragment hMem
  have hLines := Block.nested_rowsFrom hNeat.lines s.depth (hNeat.depth 0)
  rw [Fragment.lines, of_decide_eq_true hPlace]
  exact hLines

/-- How many braces are open after a row that stands as the braces open before it say; none if it
does not. -/
def Row.braces? (n : Nat) (row : Row) : Option Nat :=
  match row.text with
  | [] => some n
  | '}' :: t => if n = row.depth + 1 then Text.braces? row.depth t else none
  | c :: t => if n = row.depth && !isBlank c then Text.braces? n (c :: t) else none

theorem Row.nestedLine_of_braces? {n k : Nat} {row : Row} (h : row.braces? n = some k) :
    NestedLine n (row.line 0) k := by
  obtain ⟨depth, text⟩ := row
  rw [braces?] at h
  split at h
  · next hText =>
    cases h
    simp only at hText
    rw [hText]
    exact .blank _
  · next t hText =>
    split at h
    · next hDepth =>
      simp only at hText hDepth
      rw [hText, hDepth, Row.line, Nat.zero_add]
      exact .closing h
    · cases h
  · next c t hBrace hText =>
    split at h
    · next hDepth =>
      simp only [Bool.and_eq_true, decide_eq_true_eq, Bool.not_eq_true'] at hText hDepth
      rw [hText, hDepth.1, Row.line, Nat.zero_add]
      exact .plain hDepth.2 hBrace (hDepth.1 ▸ h)
    · cases h

namespace Frame
variable {frame : Frame} {code : Section → List Text} {n k m depth : Nat}

theorem nested_gap (h : Nested n (splice frame code) m) :
    Nested n (splice (.row depth [] :: frame) code) m := .cons (.blank n) h

theorem nested_row {t : Text} (hRow : Row.braces? n ⟨depth, t⟩ = some k)
    (h : Nested k (splice frame code) m) :
    Nested n (splice (.row depth (ofString (String.ofList t)) :: frame) code) m := by
  have hText : ofString (String.ofList t) = t := by rw [ofString, String.toList_ofList]
  rw [hText]
  exact .cons (Row.nestedLine_of_braces? hRow) h

theorem nested_slot {s : Section} (hCode : Nested s.depth (code s) s.depth) (hDepth : n = s.depth)
    (h : Nested n (splice frame code) m) : Nested n (splice (.slot s :: frame) code) m := by
  subst hDepth
  exact hCode.append h

end Frame

/-- Code that stands at the depth of its section makes a frame into lines that are all nested. -/
theorem Artifact.nested_frame {code : Section → List Text}
    (hCode : ∀ s : Section, Nested s.depth (code s) s.depth) (artifact : Artifact) :
    Nested 0 (artifact.frame.splice code) 0 := by
  cases artifact <;>
  simp only [frame, Frame.builders, Frame.equality, Frame.printer, Frame.toucher,
    Frame.tokenBoundary, Frame.searchFunction, Frame.notice, FramePart.gap, List.cons_append,
    List.nil_append] <;>
  repeat first
    | exact .nil 0
    | refine Frame.nested_gap ?_
    | refine Frame.nested_slot (hCode _) (by rfl) ?_
    | refine Frame.nested_row rfl ?_

/-- A node with a list that takes a level of its own in the search for its last token, a type that
is only a pointer mark, and a tag with a blank. -/
def callNode : NodeDecl :=
  ⟨"CallSyntax", none, [⟨"arguments", "SeparatedSyntaxList<ExprSyntax>*"⟩, ⟨"_next", "*"⟩],
    ["Call", "New Call"]⟩

end NodeScaffold
