import NodeScaffold.Proofs.Emission
import NodeScaffold.Proofs.Origin

/-! # What a reader always holds

Whatever lines a reader is given, the nodes it has found so far are well formed, and so is the draft
it may still be working on. Every node has a tag, so that code can be written for all of them. -/
namespace NodeScaffold
set_option autoImplicit false

structure FieldDecl.WellFormed (field : FieldDecl) : Prop where
  name : isName field.name
  type : ∀ c ∈ field.type, Text.isBlank c = false

structure NodeDecl.WellFormed (node : NodeDecl) : Prop where
  name : isName node.name
  base : ∃ base, node.base? = some base ∧ isName base
  fields : ∀ field ∈ node.fields, field.WellFormed
  tags : node.tags ≠ []

structure Draft.WellFormed (conv : Conventions) (draft : Draft) : Prop where
  name : isName draft.name
  base : isName draft.base
  fields : ∀ field ∈ draft.fields, field.WellFormed
  tags : ∀ tag ∈ draft.tags, tag ≠ [] ∧ tag.trim = tag ∧ conv.tagSeparator ∉ tag
  block : draft.tags ≠ [] → draft.hasTagBlock

def Mode.WellFormed (conv : Conventions) : Mode → Prop
  | .between | .guarded => True
  | .body draft => draft.WellFormed conv
  | .tagBlock draft => draft.WellFormed conv ∧ draft.hasTagBlock

def StartsPlainly (t : Text) : Prop := ∃ c rest, t = c :: rest ∧ Text.isBlank c = false

theorem isName_of_mem_lexemes {t name : Text} (h : (.ident, name) ∈ t.lexemes) : isName name := by
  obtain ⟨token, hToken, hEq⟩ := List.mem_map.mp h
  obtain ⟨hKind, rfl⟩ := Prod.mk.inj hEq
  exact TokenLine.isName_of_mem_ofText hToken hKind

namespace FieldDecl

theorem wellFormed_of_ofLine? {t : Text} {field : FieldDecl}
    (h : ofLine? (TokenLine.ofText t) = some field) : field.WellFormed := by
  obtain ⟨before, name, semicolon, -, hLexemes, -, rfl⟩ := ofLine?_ofText_eq_some_iff.mp h
  refine ⟨isName_of_mem_lexemes (t := t) (by simp [hLexemes]), fun c hc => ?_⟩
  simpa using (List.mem_filter.mp hc).2

/-- The first lexeme of a line belongs to the type of its field. Blanks that are no gaps are
lexemes as well, so the line must not start with one. -/
theorem type_ne_nil {t : Text} {field : FieldDecl} (ht : StartsPlainly t)
    (h : ofLine? (TokenLine.ofText t) = some field) : field.type ≠ [] := by
  obtain ⟨before, name, semicolon, hBefore, hLexemes, -, rfl⟩ := ofLine?_ofText_eq_some_iff.mp h
  obtain ⟨c, rest, rfl, hc⟩ := ht
  obtain ⟨first, more, rfl⟩ := List.exists_cons_of_ne_nil hBefore
  have hGap : isGap c = false := by
    by_contra hGap
    simp [isBlank_of_isGap (by simpa using hGap)] at hc
  rw [Text.lexemes_cons hGap, List.cons_append] at hLexemes
  obtain ⟨rfl, -⟩ := List.cons.inj hLexemes
  simp [Text.withoutBlanks, hc]

end FieldDecl

theorem trim_entryTag (conv : Conventions) (entry : Text) :
    (Step.entryTag conv entry).trim = Step.entryTag conv entry := Text.trim_trim _

theorem tagSeparator_notMem_entryTag (conv : Conventions) (entry : Text) :
    conv.tagSeparator ∉ Step.entryTag conv entry := by
  intro hMem
  have hBefore := List.mem_takeWhile_imp ((Text.trim_isInfix _).subset hMem)
  simp at hBefore

section
variable {conv : Conventions} {lines : Text → Prop}

theorem Draft.ReadFrom.wellFormed {draft : Draft} (h : draft.ReadFrom conv lines) :
    draft.WellFormed conv := by
  obtain ⟨⟨_, -, hName⟩, ⟨_, -, hBase⟩, hFields, hTags, hBlock⟩ := h
  refine ⟨isName_of_mem_lexemes hName, isName_of_mem_lexemes hBase, fun field hField => ?_,
    fun tag hTag => ?_, hBlock⟩
  · obtain ⟨_, -, hLine⟩ := hFields field hField
    exact FieldDecl.wellFormed_of_ofLine? hLine
  · obtain ⟨hNonempty, _, entry, -, -, rfl⟩ := hTags tag hTag
    exact ⟨hNonempty, trim_entryTag conv entry, tagSeparator_notMem_entryTag conv entry⟩

theorem Mode.ReadFrom.wellFormed {mode : Mode} (h : mode.ReadFrom conv lines) :
    mode.WellFormed conv := by
  cases mode with
  | between | guarded => trivial
  | body draft => exact Draft.ReadFrom.wellFormed h
  | tagBlock draft => exact ⟨h.1.wellFormed, h.2⟩

/-- Closing a draft keeps its parts and makes sure of a tag. -/
theorem Draft.WellFormed.closedNode {draft : Draft} (h : draft.WellFormed conv) :
    (draft.closedNode conv).WellFormed := by
  rw [Draft.closedNode]
  split
  · exact ⟨h.name, ⟨draft.base, rfl, h.base⟩, h.fields, by simp⟩
  · next hTags => exact ⟨h.name, ⟨draft.base, rfl, h.base⟩, h.fields, by simpa [node] using hTags⟩

theorem Catalog.wellFormed_of_readFrom {findings : List Finding}
    (h : ∀ finding ∈ findings, finding.ReadFrom conv lines) :
    ∀ node ∈ (ofFindings conv findings).toList, node.WellFormed := by
  intro node hNode
  obtain ⟨draft, hMem, rfl⟩ := mem_toList_ofFindings.mp hNode
  exact (Draft.ReadFrom.wellFormed (h _ hMem)).closedNode

end

theorem keepsStatements_startsPlainly : KeepsStatements StartsPlainly := by
  intro t header s _ _ hs
  obtain ⟨hMem, hNonempty⟩ := List.mem_filter.mp hs
  obtain ⟨piece, -, rfl⟩ := List.mem_map.mp hMem
  cases hPiece : Text.trim piece with
  | nil => simp [hPiece] at hNonempty
  | cons c rest => exact ⟨c, rest, rfl, Text.isBlank_of_mem_head?_trim piece c (by simp [hPiece])⟩

theorem Line.exists_clean_of_mem_ofSource {source : Text} {line : Line}
    (h : line ∈ ofSource source) :
    line.text ≠ [] ∧ ∃ t ∈ source.split '\n', line.text = clean t := by
  obtain ⟨hMem, hNonempty⟩ := List.mem_filter.mp h
  obtain ⟨⟨t, n⟩, hZip, rfl⟩ := List.mem_map.mp hMem
  obtain ⟨u, hu, rfl⟩ := List.mem_map.mp (List.fst_mem_of_mem_zipIdx hZip)
  exact ⟨by simpa using hNonempty, u, hu, rfl⟩

theorem Line.startsPlainly_of_mem_ofSource {source : Text} {line : Line}
    (h : line ∈ ofSource source) : StartsPlainly line.text := by
  obtain ⟨hNonempty, t, -, hText⟩ := exists_clean_of_mem_ofSource h
  obtain ⟨c, rest, hCons⟩ := List.exists_cons_of_ne_nil hNonempty
  obtain ⟨more, hMore⟩ := clean_isPrefix_trim t
  rw [← hText, hCons] at hMore
  exact ⟨c, rest, hCons, Text.isBlank_of_mem_head?_trim t c (by simp [← hMore])⟩

theorem Catalog.wellFormed_of_mem_ofSource {conv : Conventions} {source : Text} {node : NodeDecl}
    (h : node ∈ (ofSource conv source).toList) :
    node.WellFormed ∧ ∀ field ∈ node.fields, field.type ≠ [] := by
  obtain ⟨draft, hDraft, rfl⟩ := readFrom_of_mem_ofSource keepsStatements_startsPlainly
    (fun line => Line.startsPlainly_of_mem_ofSource) h
  refine ⟨hDraft.wellFormed.closedNode, fun field hField => ?_⟩
  rw [Draft.fields_closedNode] at hField
  obtain ⟨t, ht, hLine⟩ := hDraft.fields field hField
  exact FieldDecl.type_ne_nil ht hLine

/-- After any lines whatsoever, all nodes found so far and the draft in progress are well formed.
The nodes of a source have no empty type either, and their code can always be written, while for
other nodes this fails exactly if a first tag is asked for and missing. -/
theorem reader_wellFormed (conv : Conventions) :
    (∀ lines : List Line,
      (∀ node ∈ (Catalog.ofFindings conv (Reading.ofLines conv lines).findings).toList,
        node.WellFormed) ∧
      (Reading.ofLines conv lines).mode.WellFormed conv) ∧
    (∀ source : Text,
      (∀ node ∈ (Catalog.ofSource conv source).toList,
        node.WellFormed ∧ ∀ field ∈ node.fields, field.type ≠ []) ∧
      ∀ artifact : Artifact, ∃ fragments,
        artifact.fragments conv (Catalog.ofSource conv source).toList = .ok fragments) ∧
    ∀ (nodes : List NodeDecl) (artifact : Artifact),
      (∃ e, artifact.fragments conv nodes = .error e) ↔
        (artifact = .builders ∨ artifact = .equality) ∧ ∃ node ∈ nodes, node.tags = [] := by
  refine ⟨?_, ?_, ?_⟩
  · intro lines
    have hReading : (Reading.ofLines conv lines).ReadFrom conv fun _ => True :=
      Reading.ofLines_readFrom (fun _ _ _ _ _ _ => trivial) fun _ _ => trivial
    exact ⟨Catalog.wellFormed_of_readFrom hReading.findings, hReading.mode.wellFormed⟩
  · intro source
    have hNodes : ∀ node ∈ (Catalog.ofSource conv source).toList,
        node.WellFormed ∧ ∀ field ∈ node.fields, field.type ≠ [] := by
      intro node hNode
      exact Catalog.wellFormed_of_mem_ofSource hNode
    exact ⟨hNodes,
      Artifact.exists_fragments_eq_ok conv fun node hNode => (hNodes node hNode).1.tags⟩
  · intro nodes artifact
    exact Artifact.exists_fragments_eq_error_iff

end NodeScaffold
