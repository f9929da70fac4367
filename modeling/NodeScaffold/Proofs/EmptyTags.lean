import NodeScaffold.Proofs.Coverage

/-! # Tags with nothing in them

A tag that was read from a tag block is never empty, but the implied tag of a node whose name is the
usual ending and nothing else is. There is no other way to an empty tag, and every such tag is seen
in the documents: as a case without a name, and as a stamp without one. -/
namespace NodeScaffold
open Code
set_option autoImplicit false

theorem Conventions.impliedTag_eq_nil_iff (conv : Conventions) {name : Text} (h : name ≠ []) :
    conv.impliedTag name = [] ↔ name = conv.nodeEnding := by
  rw [impliedTag, Text.dropEnd?]
  split
  · next hEnding =>
    obtain ⟨stem, rfl⟩ := List.isSuffixOf_iff_suffix.mp hEnding
    simp
  · next hEnding =>
    constructor
    · intro hNil
      exact absurd hNil h
    · rintro rfl
      simp at hEnding

theorem Conventions.impliedTag_subset (conv : Conventions) (name : Text) :
    conv.impliedTag name ⊆ name := by
  rw [impliedTag, Text.dropEnd?]
  split
  · exact List.take_subset _ _
  · exact fun c hc => hc

namespace Draft
variable {conv : Conventions} {draft : Draft}

theorem tags_closedNode_of_nil (h : draft.tags = []) :
    (draft.closedNode conv).tags = [conv.impliedTag draft.name] := by
  rw [closedNode, h]
  rfl

theorem tags_closedNode_of_ne_nil (h : draft.tags ≠ []) :
    (draft.closedNode conv).tags = draft.tags := by
  rw [closedNode, if_neg (by simpa using h)]
  rfl

/-- The tags of a closed node are trimmed, and empty only if none was read and nothing of the name
is left without its ending. -/
theorem WellFormed.tag_of_mem_closedNode (h : draft.WellFormed conv) {tag : Text}
    (hTag : tag ∈ (draft.closedNode conv).tags) :
    tag.trim = tag ∧ (tag = [] ↔ draft.tags = [] ∧ draft.name = conv.nodeEnding) := by
  have hWord := isWord_of_isName h.name
  by_cases hTags : draft.tags = []
  · have hName : draft.name ≠ [] := by
      intro hNil
      simp [hNil, isWord] at hWord
    rw [tags_closedNode_of_nil hTags, List.mem_singleton] at hTag
    subst hTag
    constructor
    · apply Text.trim_eq_self_of_forall
      intro c hc
      exact isBlank_of_isWordPart (isWordPart_of_mem hWord (conv.impliedTag_subset _ hc))
    · rw [conv.impliedTag_eq_nil_iff hName]
      simp [hTags]
  · rw [tags_closedNode_of_ne_nil hTags] at hTag
    obtain ⟨hNonempty, hTrim, -⟩ := h.tags tag hTag
    exact ⟨hTrim, by simp [hNonempty, hTags]⟩

theorem wellFormed_of_mem_ofSource {source : Text}
    (h : .closed draft ∈ Finding.ofSource conv source) : draft.WellFormed conv := by
  have hReading : (Reading.ofLines conv (Line.ofSource source)).ReadFrom conv fun _ => True :=
    Reading.ofLines_readFrom (fun _ _ _ _ _ _ => trivial) fun _ _ => trivial
  exact ReadFrom.wellFormed (Reading.atEnd_readFrom hReading _ h)

end Draft

namespace Catalog

def NamesTags (catalog : Catalog) : Prop := ∀ node ∈ catalog.toList, ∀ tag ∈ node.tags, tag ≠ []

variable {conv : Conventions} {source : Text}

theorem trim_of_mem_tags {node : NodeDecl} (h : node ∈ (ofSource conv source).toList) {tag : Text}
    (hTag : tag ∈ node.tags) : tag.trim = tag := by
  obtain ⟨draft, hDraft, rfl⟩ := mem_toList_ofFindings.mp h
  exact ((Draft.wellFormed_of_mem_ofSource hDraft).tag_of_mem_closedNode hTag).1

theorem namesTags_ofSource_iff :
    (ofSource conv source).NamesTags ↔ ∀ draft, .closed draft ∈ Finding.ofSource conv source →
      draft.tags = [] → draft.name ≠ conv.nodeEnding := by
  constructor
  · intro h draft hDraft hTags hName
    have hTag : conv.impliedTag draft.name ∈ (draft.closedNode conv).tags := by
      rw [Draft.tags_closedNode_of_nil hTags]
      exact List.mem_singleton.mpr rfl
    apply h (draft.closedNode conv) (mem_toList_ofFindings.mpr ⟨draft, hDraft, rfl⟩) _ hTag
    exact ((Draft.wellFormed_of_mem_ofSource hDraft).tag_of_mem_closedNode hTag).2.mpr
      ⟨hTags, hName⟩
  · rintro h node hNode tag hTag rfl
    obtain ⟨draft, hDraft, rfl⟩ := mem_toList_ofFindings.mp hNode
    obtain ⟨hTags, hName⟩ :=
      ((Draft.wellFormed_of_mem_ofSource hDraft).tag_of_mem_closedNode hTag).2.mp rfl
    exact h draft hDraft hTags hName

/-- An empty tag is the only tag of its node. -/
theorem tags_eq_of_nil_mem {node : NodeDecl} (h : node ∈ (ofSource conv source).toList)
    (hTag : [] ∈ node.tags) : node.tags = [[]] := by
  obtain ⟨draft, hDraft, rfl⟩ := mem_toList_ofFindings.mp h
  have hEmpty := (Draft.wellFormed_of_mem_ofSource hDraft).tag_of_mem_closedNode hTag
  have hTags := @Draft.tags_closedNode_of_nil conv _ (hEmpty.2.mp rfl).1
  rw [hTags] at hTag
  rw [hTags, ← List.mem_singleton.mp hTag]

end Catalog

def emptyCase : Text := "case SyntaxKind::: \x7b"

theorem emptyCase_eq : emptyCase = (caseOpening .standard []).text := by
  simp [caseOpening_text, emptyCase, Text.ofString]

theorem opensCase_of_trimStart_eq_emptyCase {t : Text} (h : t.trimStart = emptyCase) :
    opensCase t = true := by
  rw [opensCase, h]
  with_unfolding_all decide

theorem eq_nil_of_caseOpening_eq {tag : Text} (h : (caseOpening .standard tag).text = emptyCase) :
    tag = [] := by
  have hLength := congrArg List.length h
  rw [emptyCase_eq, caseOpening_text, caseOpening_text] at hLength
  simp only [List.length_cons, List.length_append, List.length_nil] at hLength
  exact List.length_eq_zero_iff.mp (by omega)

/-- The only line of an arm that can be a case without a name is the first one. -/
theorem Dispatch.eq_nil_of_mem_body {d : Dispatch} {pair : NodeDecl × Text}
    (hName : isWord pair.1.name) {line : CodeLine} (hLine : line ∈ (d.fragment .standard pair).body)
    (h : line.text.trimStart = emptyCase) : pair.2 = [] := by
  rcases List.mem_cons.mp hLine with rfl | hInner
  · rw [trimStart_caseOpening] at h
    exact eq_nil_of_caseOpening_eq h
  · have hCase := opensCase_of_trimStart_eq_emptyCase h
    rw [(d.isInner_armBody hName line hInner).noCase] at hCase
    cases hCase

/-- A line that differs from it at some place, counted from the end, is no case without a name. -/
theorem trimStart_concat_ne_emptyCase (n : Nat) {pieces : List Text}
    (h : ∃ c d, pieces.getLast?.bind (fun ending => ending.reverse[n]?) = some c ∧
      emptyCase.reverse[n]? = some d ∧ c ≠ d) : (Text.concat pieces).trimStart ≠ emptyCase := by
  intro hSame
  obtain ⟨c, d, hLast, hCase, hNe⟩ := h
  obtain ⟨ending, hEnding, hPiece⟩ := Option.bind_eq_some_iff.mp hLast
  obtain ⟨before, rfl⟩ := List.getLast?_eq_some_iff.mp hEnding
  have hAt {u : Text} {x : Char} (hSuffix : u <:+ Text.concat (before ++ [ending]))
      (hx : u.reverse[n]? = some x) :
      (Text.concat (before ++ [ending])).reverse[n]? = some x := by
    obtain ⟨rest, hRest⟩ := List.reverse_prefix.mpr hSuffix
    rw [← hRest, List.getElem?_append_left (List.getElem?_eq_some_iff.mp hx).1, hx]
  have hc := hAt (by simp [Text.concat]) hPiece
  have hd := hAt (hSame ▸ List.dropWhile_suffix _) hCase
  exact hNe (Option.some.inj (hc.symm.trans hd))

theorem trimStart_nil_ne_emptyCase : Text.trimStart [] ≠ emptyCase := by with_unfolding_all decide

namespace Code.Construction

theorem trimStart_setter_ne_emptyCase (name : Text) (field : FieldDecl) :
    ∀ line ∈ setter .standard name field, line.text.trimStart ≠ emptyCase := by
  simp only [setter, List.forall_mem_cons]
  refine ⟨trimStart_nil_ne_emptyCase, ?_, ?_, ?_, ?_, by simp⟩
  · exact trimStart_concat_ne_emptyCase 2 (by simp [emptyCase, Text.ofString])
  all_goals exact trimStart_concat_ne_emptyCase 0 (by simp [emptyCase, Text.ofString])

theorem trimStart_assignment_ne_emptyCase (field : FieldDecl) :
    (assignment .standard field).text.trimStart ≠ emptyCase := by
  rw [assignment]
  split
  all_goals exact trimStart_concat_ne_emptyCase 0 (by simp [emptyCase, Text.ofString])

theorem trimStart_build_ne_emptyCase (node : NodeDecl) (tag : Text) :
    ∀ line ∈ build .standard node tag, line.text.trimStart ≠ emptyCase := by
  simp only [build, List.forall_mem_append, List.forall_mem_cons, List.forall_mem_map]
  refine ⟨⟨⟨trimStart_nil_ne_emptyCase, ?_, ?_, ?_, by simp⟩,
    fun field _ => trimStart_assignment_ne_emptyCase field⟩, ?_, ?_, by simp⟩
  · exact trimStart_concat_ne_emptyCase 2 (by simp [emptyCase, Text.ofString])
  all_goals exact trimStart_concat_ne_emptyCase 0 (by simp [emptyCase, Text.ofString])

/-- Builders have no cases. -/
theorem trimStart_builderType_ne_emptyCase (node : NodeDecl) (tag : Text) :
    ∀ line ∈ builderType .standard node tag, line.text.trimStart ≠ emptyCase := by
  have hGap : ∀ line ∈ (if node.isBare then [] else [CodeLine.blank]),
      line.text.trimStart ≠ emptyCase := by
    split
    · simp
    · exact List.forall_mem_singleton.mpr trimStart_nil_ne_emptyCase
  simp only [builderType, List.forall_mem_append, List.forall_mem_singleton, List.forall_mem_map,
    List.forall_mem_flatMap, List.forall_mem_cons]
  refine ⟨⟨⟨⟨⟨?_, hGap⟩, ?_⟩, ?_⟩, trimStart_build_ne_emptyCase node tag⟩,
    trimStart_nil_ne_emptyCase, ?_⟩
  · exact trimStart_concat_ne_emptyCase 2 (by simp [emptyCase, Text.ofString])
  · intro field _
    exact trimStart_concat_ne_emptyCase 0 (by simp [emptyCase, Text.ofString])
  · exact fun field _ => trimStart_setter_ne_emptyCase node.name field
  · exact trimStart_concat_ne_emptyCase 0 (by simp [emptyCase, Text.ofString])

theorem trimStart_factoryMethod_ne_emptyCase (name : Text) :
    ∀ line ∈ factoryMethod name, line.text.trimStart ≠ emptyCase := by
  simp only [factoryMethod, List.forall_mem_cons]
  refine ⟨?_, ?_, ?_, ?_, ?_, ?_, by simp⟩
  · exact trimStart_concat_ne_emptyCase 2 (by simp [emptyCase, Text.ofString])
  all_goals exact trimStart_concat_ne_emptyCase 0 (by simp [emptyCase, Text.ofString])

/-- Factories stamp nothing. -/
theorem stamps_factoryMethod {name : Text} (h : isWord name) :
    (factoryMethod name).stamps = [] := by
  have hBuilder : ∀ c ∈ name ++ Text.ofString "Builder", isWordPart c := by
    have hWord : ∀ c ∈ Text.ofString "Builder", isWordPart c :=
      List.all_eq_true.mp (by with_unfolding_all decide)
    exact List.forall_mem_append.mpr ⟨fun c => isWordPart_of_mem h, hWord⟩
  apply Block.stamps_eq_nil
  simp only [factoryMethod, List.forall_mem_cons]
  refine ⟨?_, ?_, ?_, ?_, ?_, ?_, by simp⟩
  case refine_2 =>
    have hText : ∃ rest, (CodeLine.line [name, "Builder* retn = allocator->Allocate<", name,
        "Builder>(1);"]).text = (name ++ Text.ofString "Builder") ++ '*' :: rest := by
      simp [CodeLine.line, Text.concat, Text.ofString]
    obtain ⟨rest, hText⟩ := hText
    have hStart : (stampHead.dropWhile isWordPart).head? = some '-' := by with_unfolding_all decide
    rw [hText]
    exact not_isPrefix_of_ne hStart hBuilder (by decide) (by decide)
  case refine_4 => with_unfolding_all decide
  all_goals
    refine not_stampHead_of_take ?_
    simp [CodeLine.opening, CodeLine.line, CodeLine.closing, Text.concat, Text.ofString]

end Code.Construction

/-- The rows of a frame are no cases. -/
theorem Artifact.trimStart_frame_ne_emptyCase (artifact : Artifact) :
    ∀ line ∈ artifact.frame.splice fun _ => [], line.trimStart ≠ emptyCase := by
  cases artifact <;> with_unfolding_all decide

/-- What holds of the rows of a frame and of the code in it holds of the whole document. -/
theorem Frame.forall_mem_splice_of_rows {P : Text → Prop} {frame : Frame}
    {code : Section → List Text} (hRows : ∀ line ∈ frame.splice fun _ => [], P line)
    (hCode : ∀ s, ∀ line ∈ code s, P line) : ∀ line ∈ frame.splice code, P line := by
  intro line hLine
  obtain ⟨part, hPart, hMem⟩ := List.mem_flatMap.mp hLine
  cases part with
  | row depth text => exact hRows line (List.mem_flatMap.mpr ⟨_, hPart, hMem⟩)
  | slot s => exact hCode s line hMem

theorem Dispatch.exists_artifact_eq {artifact : Artifact} (h : artifact ≠ .builders) :
    ∃ d : Dispatch, d.artifact = artifact := by
  cases artifact with
  | builders => exact absurd rfl h
  | equality => exact ⟨comparison, rfl⟩
  | printer => exact ⟨printing, rfl⟩
  | toucher => exact ⟨touching, rfl⟩
  | tokenBoundary => exact ⟨search .first, rfl⟩

/-- Without empty tags, no fragment of an artifact has a case without a name. -/
theorem Artifact.trimStart_fragment_ne_emptyCase {nodes : List NodeDecl} {artifact : Artifact}
    {fragment : Fragment} (hNames : ∀ node ∈ nodes, isWord node.name)
    (hTags : ∀ node ∈ nodes, ∀ tag ∈ node.tags, tag ≠ [])
    (hPlace : fragment.place ∈ artifact.sections)
    (h : fragment ∈ artifact.sectionFragments .standard nodes fragment.place) :
    ∀ line ∈ fragment.body, line.text.trimStart ≠ emptyCase := by
  by_cases hBuilders : artifact = .builders
  · subst hBuilders
    simp only [sections_builders, List.mem_cons, List.not_mem_nil, or_false] at hPlace
    rcases hPlace with hPlace | hPlace
    · rw [hPlace, sectionFragments] at h
      obtain ⟨pair, -, rfl⟩ := List.mem_map.mp h
      exact Construction.trimStart_builderType_ne_emptyCase pair.1 pair.2
    · rw [hPlace, sectionFragments] at h
      obtain ⟨node, -, rfl⟩ := List.mem_map.mp h
      exact Construction.trimStart_factoryMethod_ne_emptyCase node.name
  · obtain ⟨d, rfl⟩ := Dispatch.exists_artifact_eq hBuilders
    obtain ⟨d', hArtifact, hSame⟩ := Dispatch.exists_place_eq hPlace
    rw [← hArtifact, ← hSame, Dispatch.sectionFragments_eq] at h
    obtain ⟨pair, hPair, rfl⟩ := List.mem_map.mp h
    obtain ⟨hNode, hTag⟩ := Dispatch.mem_of_mem_pairs hPair
    intro line hLine hEmpty
    exact hTags _ hNode _ hTag (Dispatch.eq_nil_of_mem_body (hNames _ hNode) hLine hEmpty)

namespace Catalog

def CasesNamed (catalog : Catalog) : Prop :=
  ∀ artifact, ∃ document, Document.ofCatalog .standard catalog artifact = .ok document ∧
    ∀ line ∈ document.text.split '\n', line.trimStart ≠ emptyCase

def StampsNamed (catalog : Catalog) : Prop :=
  ∃ fragments, Artifact.builders.fragments .standard catalog.toList = .ok fragments ∧
    ∀ fragment ∈ fragments, [] ∉ fragment.body.stamps

variable {catalog : Catalog}

theorem NamesTags.casesNamed (h : catalog.NamesTags)
    (hNodes : ∀ node ∈ catalog.toList, node.WellFormed ∧ node.OneLine) : catalog.CasesNamed := by
  intro artifact
  obtain ⟨fragments, hFragments, hSections⟩ := Artifact.exists_fragments_eq_sections .standard
    (fun node hNode => (hNodes node hNode).1.tags) artifact
  have hFits : ∀ fragment ∈ fragments, fragment.Fits artifact := by
    intro fragment hFragment
    exact Artifact.fits_fragments Conventions.oneLine_standard
      (fun node hNode => (hNodes node hNode).2) hFragments hFragment
  have hCode : ∀ fragment ∈ fragments, ∀ line ∈ fragment.lines, line.trimStart ≠ emptyCase := by
    intro fragment hFragment
    apply Block.forall_mem_lines
    intro code hLine depth
    rw [trimStart_rowLine]
    refine Artifact.trimStart_fragment_ne_emptyCase
      (fun node hNode => isWord_of_isName (hNodes node hNode).1.name) h
      (hFits fragment hFragment).place ?_ code hLine
    rw [← hSections]
    exact List.mem_filter.mpr ⟨hFragment, by simp⟩
  refine ⟨_, Document.ofCatalog_eq_ok hFragments, ?_⟩
  rw [Artifact.split_fill hFits, List.forall_mem_append, List.forall_mem_singleton]
  refine ⟨?_, trimStart_nil_ne_emptyCase⟩
  exact Frame.forall_mem_splice_of_rows artifact.trimStart_frame_ne_emptyCase
    (forall_mem_sectionLines trimStart_nil_ne_emptyCase hCode)

/-- The printer shows every tag, also an empty one. -/
theorem CasesNamed.namesTags (h : catalog.CasesNamed)
    (hNodes : ∀ node ∈ catalog.toList, node.OneLine) : catalog.NamesTags := by
  rintro node hNode tag hTag rfl
  have hFragments : Artifact.printer.fragments .standard catalog.toList =
      .ok (catalog.toList.flatMap (Artifact.printingFragments .standard)) := rfl
  have hFits : ∀ fragment ∈ catalog.toList.flatMap (Artifact.printingFragments .standard),
      fragment.Fits .printer := fun fragment =>
    Artifact.fits_fragments Conventions.oneLine_standard hNodes hFragments
  have hArm : Dispatch.printing.fragment .standard (node, []) ∈
      catalog.toList.flatMap (Artifact.printingFragments .standard) :=
    List.mem_flatMap.mpr ⟨node, hNode, List.mem_map.mpr ⟨[], hTag, rfl⟩⟩
  obtain ⟨document, hDocument, hLines⟩ := h .printer
  rw [Document.ofCatalog_eq_ok hFragments] at hDocument
  cases hDocument
  rw [Artifact.split_fill hFits] at hLines
  have hCase : Row.line 3 ⟨0, (caseOpening .standard []).text⟩ ∈
      Artifact.printer.frame.splice (sectionLines
        (catalog.toList.flatMap (Artifact.printingFragments .standard))) :=
    (Artifact.lines_isInfix (hFits _ hArm) hArm).subset List.mem_cons_self
  apply hLines _ (List.mem_append_left _ hCase)
  rw [trimStart_rowLine, trimStart_caseOpening, ← emptyCase_eq]

theorem namesTags_iff_casesNamed
    (h : ∀ node ∈ catalog.toList, node.WellFormed ∧ node.OneLine) :
    catalog.NamesTags ↔ catalog.CasesNamed := by
  constructor
  · exact fun hTags => hTags.casesNamed h
  · exact fun hCases => hCases.namesTags fun node hNode => (h node hNode).2

theorem stampsNamed_iff (h : ∀ node ∈ catalog.toList, node.WellFormed) :
    catalog.StampsNamed ↔ ∀ pair ∈ leadTaggedNodes catalog.toList, pair.2 ≠ [] := by
  have hBuilders : catalog.toList.mapM (Artifact.builderFragment .standard) = .ok _ :=
    mapM_leadTag (fun node hNode => (h node hNode).tags) _
  have hStamps : ∀ pair ∈ leadTaggedNodes catalog.toList,
      (Construction.builderType .standard pair.1 pair.2).stamps = [pair.2] := by
    intro pair hPair
    have hNode := h _ (Dispatch.mem_of_mem_pairs (d := .comparison) hPair).1
    exact Construction.stamps_builderType hNode pair.2
  have hFactories : ∀ node ∈ catalog.toList,
      (Construction.factoryMethod node.name).stamps = [] := by
    intro node hNode
    exact Construction.stamps_factoryMethod (isWord_of_isName (h node hNode).name)
  simp only [StampsNamed, Artifact.fragments, hBuilders]
  constructor
  · rintro ⟨fragments, hFragments, hNamed⟩ pair hPair hNil
    cases hFragments
    have hNil' := hNamed _ (List.mem_append_left _ (List.mem_map_of_mem hPair))
    rw [hStamps pair hPair, hNil] at hNil'
    simp at hNil'
  · intro hPairs
    refine ⟨_, rfl, ?_⟩
    simp only [List.forall_mem_append, List.forall_mem_map]
    constructor
    · intro pair hPair
      simpa [hStamps pair hPair] using (hPairs pair hPair).symm
    · intro node hNode
      simp [Artifact.factoryFragment, hFactories node hNode]

/-- A builder stamps the first tag of its node, and an empty tag has none before it. -/
theorem namesTags_iff_stampsNamed {source : Text} :
    (ofSource .standard source).NamesTags ↔ (ofSource .standard source).StampsNamed := by
  have hNodes : ∀ node ∈ (ofSource .standard source).toList, node.WellFormed :=
    fun node hNode => (wellFormed_of_mem_ofSource hNode).1
  rw [stampsNamed_iff hNodes]
  constructor
  · intro h pair hPair
    obtain ⟨hNode, hTag⟩ := Dispatch.mem_of_mem_pairs (d := .comparison) hPair
    exact h _ hNode _ hTag
  · rintro h node hNode tag hTag rfl
    have hTags := tags_eq_of_nil_mem hNode hTag
    have hPair : (node, []) ∈ leadTaggedNodes (ofSource .standard source).toList := by
      refine List.mem_filterMap.mpr ⟨node, hNode, ?_⟩
      rw [NodeDecl.leadTag?, hTags]
      rfl
    exact h _ hPair rfl

end Catalog

/-- Every tag of a source is trimmed, and it is not empty either unless a node is named like the
usual ending and has no tag of its own. This is seen in the documents: without such a node no line
is a case without a name and no builder stamps an empty tag, and with one both are there. -/
theorem tags_of_source_named_iff (source : Text) :
    (∀ node ∈ (Catalog.ofSource .standard source).toList, ∀ tag ∈ node.tags, tag.trim = tag) ∧
    ((Catalog.ofSource .standard source).NamesTags ↔
      ∀ draft, .closed draft ∈ Finding.ofSource .standard source → draft.tags = [] →
        draft.name ≠ Text.ofString "Syntax") ∧
    ((Catalog.ofSource .standard source).NamesTags ↔
      (Catalog.ofSource .standard source).CasesNamed) ∧
    ((Catalog.ofSource .standard source).NamesTags ↔
      (Catalog.ofSource .standard source).StampsNamed) := by
  refine ⟨?_, Catalog.namesTags_ofSource_iff, ?_, Catalog.namesTags_iff_stampsNamed⟩
  · intro node hNode tag hTag
    exact Catalog.trim_of_mem_tags hNode hTag
  · apply Catalog.namesTags_iff_casesNamed
    intro node hNode
    exact ⟨(Catalog.wellFormed_of_mem_ofSource hNode).1, Catalog.oneLine_of_mem_ofSource hNode⟩

/-- The name of this node is its ending, so its only tag is empty. -/
theorem not_namesTags_ofSource_syntax :
    ¬(Catalog.ofSource .standard "struct Syntax : SyntaxBase \x7b\n\x7d;").NamesTags := by
  have hTags : ∃ node ∈ (Catalog.ofSource .standard
      "struct Syntax : SyntaxBase \x7b\n\x7d;").toList, [] ∈ node.tags := by
    decide +kernel
  obtain ⟨node, hNode, hTag⟩ := hTags
  intro h
  exact h node hNode [] hTag rfl

end NodeScaffold
