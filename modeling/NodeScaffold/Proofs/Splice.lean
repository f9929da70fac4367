import Mathlib.Data.List.Basic
import NodeScaffold.Document.Basic
import NodeScaffold.Proofs.CodeLines
import NodeScaffold.Proofs.Emission
import NodeScaffold.Proofs.ReaderInvariant
import NodeScaffold.Proofs.Substitution

/-! # Documents as spliced lines

The sections of a document are filled one after the other, each in a text that already holds names
from the header. Since no line of code ends as a mark does, this comes to the same as putting the
code of all sections in place of their marks at once. -/
namespace NodeScaffold
set_option autoImplicit false

def Row.line (base : Nat) (row : Row) : Text :=
  if row.text.isEmpty then [] else Text.indentation (base + row.depth) ++ row.text

def Block.lines (base : Nat) (block : Block) : List Text := block.rows.map (Row.line base)

def Fragment.lines (fragment : Fragment) : List Text := fragment.body.lines fragment.place.depth

def sectionLines (fragments : List Fragment) (s : Section) : List Text :=
  List.intercalate [[]] ((fragments.filter (·.place = s)).map Fragment.lines)

def FramePart.lines (code : Section → List Text) : FramePart → List Text
  | row depth text => [Row.line 0 ⟨depth, text⟩]
  | slot s => code s

/-- The lines of a frame with the given lines in place of its marks. -/
def Frame.splice (frame : Frame) (code : Section → List Text) : List Text :=
  frame.flatMap (FramePart.lines code)

theorem isInfix_intercalate {group : List Text} {groups : List (List Text)} (h : group ∈ groups) :
    group <:+: List.intercalate [[]] groups := by
  induction groups with
  | nil => cases h
  | cons first groups ih =>
    cases groups with
    | nil => simp_all
    | cons next groups =>
      rw [List.intercalate_cons_cons]
      rcases List.mem_cons.mp h with rfl | h
      · exact (List.prefix_append_of_prefix (List.prefix_append _ _)).isInfix
      · exact (ih h).trans (List.suffix_append _ _).isInfix

theorem isInfix_unlines {lines lines' : List Text} (h : lines <:+: lines') :
    Text.unlines lines <:+: Text.unlines lines' := by
  obtain ⟨before, after, rfl⟩ := h
  exact ⟨Text.unlines before, Text.unlines after, by simp⟩

theorem Row.render_eq (base : Nat) (row : Row) : row.render base = row.line base ++ ['\n'] := by
  rw [render, line]
  split <;> rfl

theorem Block.render_eq_unlines (base : Nat) (block : Block) :
    block.render base = Text.unlines (block.lines base) := by
  rw [render, lines, Text.unlines, List.flatMap_map]
  congr 1
  funext row
  exact row.render_eq base

theorem Frame.render_eq_unlines (frame : Frame) :
    frame.render = Text.unlines (frame.splice fun s => [s.mark]) := by
  rw [render, splice, Text.unlines_flatMap]
  congr 1
  funext part
  cases part with
  | row depth text => simp [FramePart.render, FramePart.lines, Row.render_eq]
  | slot s => simp [FramePart.render, FramePart.lines]

theorem unmarked_rowLine {text : Text} (h : Unmarked text) (base depth : Nat) :
    Unmarked (Row.line base ⟨depth, text⟩) := by
  rw [Row.line]
  split
  · exact unmarked_nil
  · next hNonempty =>
    have hIndentation : '\n' ∉ Text.indentation (base + depth) := by simp [Text.indentation]
    refine ⟨by simp [hIndentation, h.oneLine], ?_⟩
    rw [List.getLast?_append]
    cases hLast : text.getLast? with
    | none => exact absurd (List.getLast?_eq_none_iff.mp hLast) (by simpa using hNonempty)
    | some c => simpa [hLast] using h.ending

theorem Block.forall_mem_lines {P : Text → Prop} {block : Block} {base : Nat}
    (h : ∀ code ∈ block, ∀ depth, P (Row.line base ⟨depth, code.text⟩)) :
    ∀ line ∈ block.lines base, P line := by
  intro line hLine
  obtain ⟨row, hRow, rfl⟩ := List.mem_map.mp hLine
  have hText := List.mem_map_of_mem (f := Row.text) hRow
  rw [Block.rows, Block.map_text_rowsFrom] at hText
  obtain ⟨code, hCode, hEq⟩ := List.mem_map.mp hText
  have hRowLine := h code hCode row.depth
  rwa [hEq] at hRowLine

theorem Block.Unmarked.lines {block : Block} (h : block.Unmarked) (base : Nat) :
    ∀ line ∈ block.lines base, NodeScaffold.Unmarked line := by
  apply Block.forall_mem_lines
  intro code hCode depth
  exact unmarked_rowLine (h code hCode) base depth

/-- What holds of an empty line and of the lines of all fragments holds of a section. -/
theorem forall_mem_sectionLines {P : Text → Prop} {fragments : List Fragment} (hNil : P [])
    (h : ∀ fragment ∈ fragments, ∀ line ∈ fragment.lines, P line) (s : Section) :
    ∀ line ∈ sectionLines fragments s, P line := by
  have hGroups : ∀ group ∈ (fragments.filter (·.place = s)).map Fragment.lines,
      ∀ line ∈ group, P line := by
    intro group hGroup
    obtain ⟨fragment, hFragment, rfl⟩ := List.mem_map.mp hGroup
    exact h fragment (List.mem_filter.mp hFragment).1
  rw [sectionLines]
  generalize (fragments.filter (·.place = s)).map Fragment.lines = groups at hGroups
  induction groups with
  | nil => simp
  | cons group groups ih =>
    cases groups with
    | nil => simpa using hGroups
    | cons next groups =>
      obtain ⟨hGroup, hRest⟩ := List.forall_mem_cons.mp hGroups
      rw [List.intercalate_cons_cons]
      exact List.forall_mem_append.mpr ⟨List.forall_mem_append.mpr
        ⟨hGroup, List.forall_mem_singleton.mpr hNil⟩, ih hRest⟩

theorem unmarked_sectionLines {fragments : List Fragment}
    (h : ∀ fragment ∈ fragments, fragment.body.Unmarked) (s : Section) :
    ∀ line ∈ sectionLines fragments s, Unmarked line := by
  apply forall_mem_sectionLines unmarked_nil
  intro fragment hFragment
  exact (h fragment hFragment).lines _

def FramePart.Unmarked : FramePart → Prop
  | row _ text => NodeScaffold.Unmarked text
  | slot _ => True

theorem unmarked_ofString {t : Text} (hBreak : '\n' ∉ t) (hEnding : t.getLast? ≠ some '_') :
    Unmarked (Text.ofString (String.ofList t)) :=
  ⟨by simpa using hBreak, by simpa using hEnding⟩

/-- The fixed rows of a frame do not end as marks do. -/
theorem Artifact.unmarked_frame (artifact : Artifact) :
    ∀ part ∈ artifact.frame, part.Unmarked := by
  cases artifact <;>
  simp only [frame, Frame.builders, Frame.equality, Frame.printer, Frame.toucher,
    Frame.tokenBoundary, Frame.searchFunction, Frame.notice, FramePart.gap, FramePart.Unmarked,
    List.forall_mem_append, List.forall_mem_cons, List.not_mem_nil, false_imp_iff, implies_true,
    unmarked_nil, true_and, and_true] <;>
  and_intros <;>
  exact unmarked_ofString (by decide) (by decide)

namespace Section

theorem not_mark_suffix {t : Text} (h : Unmarked t) (s : Section) : ¬s.mark <:+ t := by
  rintro ⟨before, rfl⟩
  have hMark : s.mark.getLast? = some '_' := by cases s <;> simp [mark]
  exact h.ending (by rw [List.getLast?_append, hMark]; rfl)

theorem not_mark_suffix_mark {s s' : Section} (h : s ≠ s') : ¬s.mark <:+ s'.mark := by
  have hAll (s : Section) : s ∈ [nodeBuilders, builderApi, cases, firstToken, lastToken] := by
    cases s <;> decide
  have hMarks : ∀ s ∈ [nodeBuilders, builderApi, cases, firstToken, lastToken],
      ∀ s' ∈ [nodeBuilders, builderApi, cases, firstToken, lastToken],
        s ≠ s' → ¬s.mark <:+ s'.mark := by
    with_unfolding_all decide
  exact hMarks s (hAll s) s' (hAll s') h

theorem newline_notMem_mark (s : Section) : '\n' ∉ s.mark := by cases s <;> simp [mark]

end Section

/-- The sections that were filled so far hold their code, and the others their mark. -/
def codeSoFar (code : Section → List Text) (filled : List Section) (s : Section) : List Text :=
  if s ∈ filled then code s else [s.mark]

section
variable {code : Section → List Text} {frame : Frame}

theorem flatMap_substituteLine {lines : List Text} (h : ∀ line ∈ lines, Unmarked line)
    (s : Section) (filling : Text) :
    lines.flatMap (Text.substituteLine s.mark filling) = Text.unlines lines := by
  rw [Text.unlines]
  refine List.flatMap_congr fun line hLine => ?_
  rw [Text.substituteLine, Text.dropEnd?_eq_none (Section.not_mark_suffix (h line hLine) s)]

theorem forall_mem_splice {P : Text → Prop} (hFrame : ∀ part ∈ frame, part.Unmarked)
    (hRows : ∀ t, Unmarked t → P t) (hCode : ∀ s, ∀ line ∈ code s, P line) :
    ∀ line ∈ frame.splice code, P line := by
  intro line hLine
  obtain ⟨part, hPart, hMem⟩ := List.mem_flatMap.mp hLine
  cases part with
  | row depth text =>
    cases List.mem_singleton.mp hMem
    exact hRows _ (unmarked_rowLine (hFrame _ hPart) 0 depth)
  | slot s => exact hCode s line hMem

/-- Filling one more section leaves the code of the others and all other marks as they are. -/
theorem substitute_splice (hFrame : ∀ part ∈ frame, part.Unmarked)
    (hCode : ∀ s, ∀ line ∈ code s, Unmarked line) (filled : List Section) (s : Section) :
    (Text.unlines (frame.splice (codeSoFar code filled))).substitute s.mark
        (Text.unlines (code s)) =
      Text.unlines (frame.splice (codeSoFar code (s :: filled))) := by
  have hLines : ∀ s', ∀ line ∈ codeSoFar code filled s', '\n' ∉ line := by
    intro s' line hLine
    rw [codeSoFar] at hLine
    split at hLine
    · exact (hCode s' line hLine).oneLine
    · cases List.mem_singleton.mp hLine
      exact s'.newline_notMem_mark
  have hSplice := forall_mem_splice hFrame (fun t ht => ht.oneLine) hLines
  rw [Text.substitute_unlines hSplice, Frame.splice, Frame.splice, List.flatMap_assoc,
    Text.unlines_flatMap]
  refine List.flatMap_congr fun part hPart => ?_
  cases part with
  | row depth text =>
    refine flatMap_substituteLine (fun line hLine => ?_) s _
    cases List.mem_singleton.mp hLine
    exact unmarked_rowLine (hFrame _ hPart) 0 depth
  | slot s' =>
    simp only [FramePart.lines, codeSoFar, List.mem_cons]
    by_cases hFilled : s' ∈ filled
    · simp only [hFilled, or_true, if_true]
      exact flatMap_substituteLine (hCode s') s _
    · by_cases hSame : s' = s
      · subst hSame
        simp [hFilled, Text.substituteLine, Text.dropEnd?_self]
      · have hOther := Text.dropEnd?_eq_none (Section.not_mark_suffix_mark (Ne.symm hSame))
        simp [hFilled, hSame, Text.substituteLine, hOther]

theorem foldl_substitute_splice (hFrame : ∀ part ∈ frame, part.Unmarked)
    (hCode : ∀ s, ∀ line ∈ code s, Unmarked line) (sections filled : List Section) :
    sections.foldl (fun t s => t.substitute s.mark (Text.unlines (code s)))
        (Text.unlines (frame.splice (codeSoFar code filled))) =
      Text.unlines (frame.splice (codeSoFar code (sections.reverse ++ filled))) := by
  induction sections generalizing filled with
  | nil => rfl
  | cons s sections ih =>
    rw [List.foldl_cons, substitute_splice hFrame hCode, ih]
    simp

end

/-- A fragment that goes into a section of the artifact, without lines that end as marks do. -/
structure Fragment.Fits (artifact : Artifact) (fragment : Fragment) : Prop where
  owner : fragment.artifact = artifact
  place : fragment.place ∈ artifact.sections
  body : fragment.body.Unmarked

namespace Artifact
open Code

@[simp] theorem sections_builders : sections .builders = [.nodeBuilders, .builderApi] := rfl

@[simp] theorem sections_equality : sections .equality = [.cases] := rfl

@[simp] theorem sections_printer : sections .printer = [.cases] := rfl

@[simp] theorem sections_toucher : sections .toucher = [.cases] := rfl

@[simp] theorem sections_tokenBoundary : sections .tokenBoundary = [.firstToken, .lastToken] := rfl

variable {conv : Conventions} {node : NodeDecl} {fragment : Fragment}

theorem fits_builderFragment (hConv : conv.OneLine) (hNode : node.OneLine)
    (h : builderFragment conv node = .ok fragment) : fragment.Fits .builders := by
  obtain ⟨tag, hTag, rfl⟩ := exists_mem_tags_of_bind_leadTag h
  exact ⟨rfl, by simp, Construction.unmarked_builderType hConv hNode (hNode.tags tag hTag)⟩

theorem fits_comparisonFragment (hConv : conv.OneLine) (hNode : node.OneLine)
    (h : comparisonFragment conv node = .ok fragment) : fragment.Fits .equality := by
  obtain ⟨tag, hTag, rfl⟩ := exists_mem_tags_of_bind_leadTag h
  exact ⟨rfl, by simp, Comparison.unmarked_caseBlock hConv hNode (hNode.tags tag hTag)⟩

theorem fits_fragments {nodes : List NodeDecl} {artifact : Artifact} {fragments : List Fragment}
    (hConv : conv.OneLine) (hNodes : ∀ node ∈ nodes, node.OneLine)
    (h : artifact.fragments conv nodes = .ok fragments) (hFragment : fragment ∈ fragments) :
    fragment.Fits artifact := by
  cases artifact with
  | builders =>
    rw [Artifact.fragments] at h
    cases hBuilders : nodes.mapM (builderFragment conv) with
    | error e => simp [bind, Except.bind, hBuilders] at h
    | ok builders =>
      rw [hBuilders] at h
      cases h
      rcases List.mem_append.mp hFragment with hMem | hMem
      · obtain ⟨node, hNode, hOk⟩ := exists_mem_of_mapM_eq_ok hBuilders hMem
        exact fits_builderFragment hConv (hNodes node hNode) hOk
      · obtain ⟨node, hNode, rfl⟩ := List.mem_map.mp hMem
        exact ⟨rfl, by simp [factoryFragment],
          Construction.unmarked_factoryMethod (hNodes node hNode).name⟩
  | equality =>
    obtain ⟨node, hNode, hOk⟩ := exists_mem_of_mapM_eq_ok h hFragment
    exact fits_comparisonFragment hConv (hNodes node hNode) hOk
  | printer =>
    cases h
    obtain ⟨node, hNode, hMem⟩ := List.mem_flatMap.mp hFragment
    obtain ⟨tag, hTag, rfl⟩ := List.mem_map.mp hMem
    have hLine := hNodes node hNode
    exact ⟨rfl, by simp, Printing.unmarked_caseBlock hConv hLine (hLine.tags tag hTag)⟩
  | toucher =>
    cases h
    obtain ⟨node, hNode, hMem⟩ := List.mem_flatMap.mp hFragment
    rw [touchingFragments] at hMem
    split at hMem
    · cases hMem
    · obtain ⟨tag, hTag, rfl⟩ := List.mem_map.mp hMem
      have hLine := hNodes node hNode
      exact ⟨rfl, by simp, Touching.unmarked_caseBlock hConv hLine (hLine.tags tag hTag)⟩
  | tokenBoundary =>
    cases h
    obtain ⟨node, hNode, hMem⟩ := List.mem_flatMap.mp hFragment
    obtain ⟨tag, hTag, hEdge⟩ := List.mem_flatMap.mp hMem
    have hLine := hNodes node hNode
    have hBlock (edge : TokenSearch.Edge) :=
      TokenSearch.unmarked_caseBlock hConv edge hLine (hLine.tags tag hTag)
    simp only [List.mem_cons, List.not_mem_nil, or_false] at hEdge
    rcases hEdge with rfl | rfl
    · exact ⟨rfl, by simp, hBlock .first⟩
    · exact ⟨rfl, by simp, hBlock .last⟩

theorem sectionText_eq_unlines {artifact : Artifact} {fragments : List Fragment}
    (h : ∀ fragment ∈ fragments, fragment.Fits artifact) (s : Section) :
    artifact.sectionText fragments s = Text.unlines (sectionLines fragments s) := by
  have hFilter : (fragments.filter fun f => f.artifact = artifact && f.place = s) =
      fragments.filter (·.place = s) :=
    List.filter_congr fun f hf => by simp [(h f hf).owner]
  have hRender : (fragments.filter (·.place = s)).map (fun f => f.body.render s.depth) =
      ((fragments.filter (·.place = s)).map Fragment.lines).map Text.unlines := by
    rw [List.map_map]
    refine List.map_congr_left fun f hf => ?_
    have hPlace : f.place = s := by simpa using (List.mem_filter.mp hf).2
    rw [Block.render_eq_unlines, Function.comp, Fragment.lines, hPlace]
  rw [sectionText, hFilter, hRender, Text.join_unlines, sectionLines]

/-- Filling the sections one after the other is splicing their lines into the frame. -/
theorem fill_eq_unlines {artifact : Artifact} {fragments : List Fragment}
    (h : ∀ fragment ∈ fragments, fragment.Fits artifact) :
    artifact.fill fragments = Text.unlines (artifact.frame.splice (sectionLines fragments)) := by
  have hCode := unmarked_sectionLines fun fragment hFragment => (h fragment hFragment).body
  have hStart : artifact.frame.splice (fun s => [s.mark]) =
      artifact.frame.splice (codeSoFar (sectionLines fragments) []) := rfl
  simp only [fill, sectionText_eq_unlines h]
  rw [Frame.render_eq_unlines, hStart, foldl_substitute_splice artifact.unmarked_frame hCode]
  -- every mark of the frame belongs to a section that was filled
  congr 1
  refine List.flatMap_congr fun part hPart => ?_
  cases part with
  | row depth text => rfl
  | slot s =>
    have hSection : s ∈ artifact.sections := List.mem_filterMap.mpr ⟨_, hPart, rfl⟩
    simp [FramePart.lines, codeSoFar, hSection]

theorem lines_isInfix {artifact : Artifact} {fragments : List Fragment}
    (h : fragment.Fits artifact) (hFragment : fragment ∈ fragments) :
    fragment.lines <:+: artifact.frame.splice (sectionLines fragments) := by
  have hSlot : .slot fragment.place ∈ artifact.frame := by
    obtain ⟨part, hPart, hSection⟩ := List.mem_filterMap.mp h.place
    cases part with
    | row depth text => cases hSection
    | slot s =>
      cases hSection
      exact hPart
  have hGroup : fragment.lines ∈
      (fragments.filter (·.place = fragment.place)).map Fragment.lines :=
    List.mem_map_of_mem (List.mem_filter.mpr ⟨hFragment, by simp⟩)
  have hSection : fragment.lines <:+: sectionLines fragments fragment.place :=
    isInfix_intercalate hGroup
  exact hSection.trans (List.infix_of_mem_flatten
    (List.mem_map_of_mem (f := FramePart.lines (sectionLines fragments)) hSlot))

theorem render_isInfix {artifact : Artifact} {fragments : List Fragment}
    (h : fragment.Fits artifact) (hFragment : fragment ∈ fragments) :
    fragment.body.render fragment.place.depth <:+:
      Text.unlines (artifact.frame.splice (sectionLines fragments)) := by
  rw [Block.render_eq_unlines]
  exact isInfix_unlines (lines_isInfix h hFragment)

end Artifact

theorem keepsStatements_oneLine : KeepsStatements ('\n' ∉ ·) := by
  intro t header s ht hFind hs hMem
  obtain ⟨piece, hPiece, rfl⟩ := List.mem_map.mp (List.mem_filter.mp hs).1
  have hBody : header.body <:+: t := by
    simpa only [TokenLine.text_ofText] using Header.body_isInfix_of_find? hFind
  have hStatement : piece <:+: header.body := by
    simpa only [Text.flatten_splitAfter] using List.infix_of_mem_flatten hPiece
  exact ht (((Text.trim_isInfix piece).trans (hStatement.trans hBody)).subset hMem)

theorem newline_notMem_of_isName {t : Text} (h : isName t) : '\n' ∉ t := by
  intro hMem
  have hPart := isWordPart_of_mem (isWord_of_isName h) hMem
  simp [isWordPart] at hPart

theorem Line.newline_notMem_of_mem_ofSource {source : Text} {line : Line}
    (h : line ∈ ofSource source) : '\n' ∉ line.text := by
  obtain ⟨-, t, ht, hText⟩ := exists_clean_of_mem_ofSource h
  intro hMem
  rw [hText] at hMem
  exact Text.notMem_of_mem_split ht
    (((clean_isPrefix_trim t).isInfix.trans (Text.trim_isInfix t)).subset hMem)

theorem newline_notMem_entryTag {conv : Conventions} {t entry : Text} (ht : '\n' ∉ t)
    (hEntry : conv.unqualified? t = some entry) : '\n' ∉ Step.entryTag conv entry := by
  have hSuffix : entry <:+ t := by
    obtain ⟨rest, hRest, hDrop⟩ := Option.bind_eq_some_iff.mp hEntry
    exact (Text.dropHead?_isSuffix hDrop).trans (Text.dropHead?_isSuffix hRest)
  intro hMem
  exact ht (hSuffix.subset ((List.takeWhile_prefix _).subset ((Text.trim_isInfix _).subset hMem)))

theorem newline_notMem_impliedTag {conv : Conventions} {name : Text} (h : '\n' ∉ name) :
    '\n' ∉ conv.impliedTag name := by
  rw [Conventions.impliedTag, Text.dropEnd?]
  split
  · exact fun hMem => h (List.mem_of_mem_take hMem)
  · exact h

theorem Catalog.oneLine_of_mem_ofSource {conv : Conventions} {source : Text} {node : NodeDecl}
    (h : node ∈ (ofSource conv source).toList) : node.OneLine := by
  obtain ⟨⟨hName, ⟨base, hBase, hBaseName⟩, hFields, -⟩, -⟩ := wellFormed_of_mem_ofSource h
  refine ⟨newline_notMem_of_isName hName, ?_, fun field hField => ⟨?_, ?_⟩, ?_⟩
  · simpa [hBase] using newline_notMem_of_isName hBaseName
  · exact newline_notMem_of_isName (hFields field hField).name
  · exact fun hMem => absurd ((hFields field hField).type '\n' hMem) (by decide)
  · obtain ⟨draft, hDraft, rfl⟩ := readFrom_of_mem_ofSource keepsStatements_oneLine
      (fun line => Line.newline_notMem_of_mem_ofSource) h
    rw [Draft.closedNode]
    split
    · simpa using newline_notMem_impliedTag (newline_notMem_of_isName hDraft.wellFormed.name)
    · intro tag hTag
      obtain ⟨-, t, entry, ht, hEntry, rfl⟩ := hDraft.tags tag hTag
      exact newline_notMem_entryTag ht hEntry

/-- A node whose parts are called like the marks. -/
def markedNode : NodeDecl :=
  ⟨"__CASES__", some "__BUILDER_API__", [⟨"__FIRST_TOKEN_CASES__", "__CASES__"⟩],
    ["__LAST_TOKEN_CASES__"]⟩

end NodeScaffold
