import NodeScaffold.Proofs.Runs

/-! # Where the parts of a node come from

Whatever a reader holds was read from some line: the words of a header, the fields of a body and the
tags of a tag block. What is known of all lines that are read, and of the statements inside of them,
is thereby known of every draft and every node, after any number of lines. -/
namespace NodeScaffold
set_option autoImplicit false

/-- A class of lines that has the statements of a body whenever it has the line of its header. -/
def KeepsStatements (lines : Text → Prop) : Prop :=
  ∀ t header s, lines t → Header.find? (TokenLine.ofText t) = some header →
    s ∈ bodyStatements header.body → lines s

/-- Every part of a draft was read from one of the given lines, the tags inside of a tag block. -/
structure Draft.ReadFrom (conv : Conventions) (lines : Text → Prop) (draft : Draft) : Prop where
  name : ∃ t, lines t ∧ (.ident, draft.name) ∈ t.lexemes
  base : ∃ t, lines t ∧ (.ident, draft.base) ∈ t.lexemes
  fields : ∀ field ∈ draft.fields,
    ∃ t, lines t ∧ FieldDecl.ofLine? (TokenLine.ofText t) = some field
  tags : ∀ tag ∈ draft.tags, tag ≠ [] ∧
    ∃ t entry, lines t ∧ conv.unqualified? t = some entry ∧ Step.entryTag conv entry = tag
  block : draft.tags ≠ [] → draft.hasTagBlock

def Mode.ReadFrom (conv : Conventions) (lines : Text → Prop) : Mode → Prop
  | .between | .guarded => True
  | .body draft => draft.ReadFrom conv lines
  | .tagBlock draft => draft.ReadFrom conv lines ∧ draft.hasTagBlock

def Finding.ReadFrom (conv : Conventions) (lines : Text → Prop) : Finding → Prop
  | .skippedLine _ | .skippedHeader _ _ => True
  | .closed draft | .unclosed draft => draft.ReadFrom conv lines

structure Reading.ReadFrom (conv : Conventions) (lines : Text → Prop) (reading : Reading) :
    Prop where
  mode : reading.mode.ReadFrom conv lines
  findings : ∀ finding ∈ reading.findings, finding.ReadFrom conv lines

variable {conv : Conventions} {lines : Text → Prop}

theorem mem_lexemes_of_mem_tokens {t : Text} {token : Token}
    (h : token ∈ (TokenLine.ofText t).tokens) : (token.kind, token.lexeme) ∈ t.lexemes :=
  List.mem_map_of_mem h

/-- The draft that a header opens. -/
theorem Draft.ReadFrom.ofHeader {t : Text} {header : Header} {base : Text} (line : Nat)
    (ht : lines t) (hFind : Header.find? (TokenLine.ofText t) = some header)
    (hBase : header.base? = some base) :
    Draft.ReadFrom conv lines { name := header.name, base, line } := by
  obtain ⟨⟨token, hToken, hKind, hName⟩, hWords⟩ := Header.words_of_find? hFind
  obtain ⟨token', hToken', hKind', hBase'⟩ := hWords base hBase
  have hMem := mem_lexemes_of_mem_tokens hToken
  have hMem' := mem_lexemes_of_mem_tokens hToken'
  rw [hKind, hName] at hMem
  rw [hKind', hBase'] at hMem'
  exact ⟨⟨t, ht, hMem⟩, ⟨t, ht, hMem'⟩, by simp, by simp, by simp⟩

theorem Draft.ReadFrom.addField {draft : Draft} (h : draft.ReadFrom conv lines) {t : Text}
    {field : FieldDecl} (ht : lines t)
    (hField : FieldDecl.ofLine? (TokenLine.ofText t) = some field) :
    (draft.addField field).ReadFrom conv lines := by
  refine ⟨h.name, h.base, fun f hf => ?_, h.tags, h.block⟩
  rcases List.mem_append.mp hf with hf | hf
  · exact h.fields f hf
  · cases List.mem_singleton.mp hf
    exact ⟨t, ht, hField⟩

theorem Draft.ReadFrom.addTag {draft : Draft} (h : draft.ReadFrom conv lines)
    (hBlock : draft.hasTagBlock) {t entry : Text} (ht : lines t)
    (hEntry : conv.unqualified? t = some entry) (hTag : Step.entryTag conv entry ≠ []) :
    (draft.addTag (Step.entryTag conv entry)).ReadFrom conv lines := by
  refine ⟨h.name, h.base, h.fields, fun tag hMem => ?_, fun _ => hBlock⟩
  rcases List.mem_append.mp hMem with hMem | hMem
  · exact h.tags tag hMem
  · cases List.mem_singleton.mp hMem
    exact ⟨hTag, t, entry, ht, hEntry, rfl⟩

namespace Step

/-- What a step leaves behind was read from the given lines, and the statements still to be read are
such lines too. -/
structure ReadFrom (conv : Conventions) (lines : Text → Prop) (step : Step) : Prop where
  mode : step.mode.ReadFrom conv lines
  findings : ∀ finding ∈ step.findings, finding.ReadFrom conv lines
  inner : ∀ s ∈ step.inner, lines s

theorem between_readFrom (hLines : KeepsStatements lines) {line : Line} (ht : lines line.text) :
    (between conv line (TokenLine.ofText line.text)).ReadFrom conv lines := by
  unfold between
  split
  · split
    · exact ⟨trivial, by simp, by simp⟩
    · split
      · exact ⟨trivial, by simp [Finding.ReadFrom], by simp⟩
      · exact ⟨trivial, by simp, by simp⟩
  · split
    · next name base body hFind =>
      exact ⟨.ofHeader line.number ht hFind rfl, by simp, fun s hs => hLines _ _ s ht hFind hs⟩
    · exact ⟨trivial, by simp, by simp⟩

theorem guarded_readFrom (hLines : KeepsStatements lines) {line : Line} (ht : lines line.text) :
    (guarded conv line (TokenLine.ofText line.text)).ReadFrom conv lines := by
  unfold guarded
  split
  · exact between_readFrom hLines ht
  · exact ⟨trivial, by simp [Finding.ReadFrom], by simp⟩

theorem body_readFrom {draft : Draft} (h : draft.ReadFrom conv lines) {line : Line}
    (ht : lines line.text) :
    (body conv draft line (TokenLine.ofText line.text)).ReadFrom conv lines := by
  unfold body
  split
  · exact ⟨⟨⟨h.name, h.base, h.fields, h.tags, fun _ => rfl⟩, rfl⟩, by simp, by simp⟩
  · split
    · exact ⟨trivial, by simpa [Finding.ReadFrom] using h, by simp⟩
    · split
      · next field hField => exact ⟨h.addField ht hField, by simp, by simp⟩
      · exact ⟨h, by simp, by simp⟩

theorem tagBlock_readFrom {draft : Draft} (h : draft.ReadFrom conv lines)
    (hBlock : draft.hasTagBlock) {line : Line} (ht : lines line.text) :
    (tagBlock conv draft line).ReadFrom conv lines := by
  unfold tagBlock
  split
  · next entry hEntry =>
    by_cases hTag : entryTag conv entry = []
    · simp only [hTag, List.isEmpty_nil, if_true]
      exact ⟨⟨h, hBlock⟩, by simp, by simp⟩
    · simp only [List.isEmpty_iff, hTag, if_false]
      exact ⟨⟨h.addTag hBlock ht hEntry hTag, hBlock⟩, by simp, by simp⟩
  · split
    · exact ⟨h, by simp, by simp⟩
    · exact ⟨⟨h, hBlock⟩, by simp, by simp⟩

theorem of_readFrom (hLines : KeepsStatements lines) {mode : Mode} {line : Line}
    (hMode : mode.ReadFrom conv lines) (ht : lines line.text) :
    (of conv mode line).ReadFrom conv lines := by
  cases mode with
  | between => exact between_readFrom hLines ht
  | guarded => exact guarded_readFrom hLines ht
  | body draft => exact body_readFrom hMode ht
  | tagBlock draft => exact tagBlock_readFrom hMode.1 hMode.2 ht

end Step

namespace Reading

theorem andThen_readFrom {reading : Reading} {next : Mode → Reading}
    (h : reading.ReadFrom conv lines)
    (hNext : ∀ mode : Mode, mode.ReadFrom conv lines → (next mode).ReadFrom conv lines) :
    (reading.andThen next).ReadFrom conv lines := by
  obtain ⟨hMode, hFindings⟩ := hNext reading.mode h.mode
  refine ⟨hMode, fun finding hMem => ?_⟩
  rcases List.mem_append.mp hMem with hMem | hMem
  · exact h.findings finding hMem
  · exact hFindings finding hMem

theorem foldl_read_readFrom {rest : List Line} {reading : Reading}
    (h : reading.ReadFrom conv lines)
    (hRest : ∀ line ∈ rest, ∀ mode : Mode, mode.ReadFrom conv lines →
      (ofLine conv mode line).ReadFrom conv lines) :
    (rest.foldl (read conv) reading).ReadFrom conv lines := by
  induction rest generalizing reading with
  | nil => exact h
  | cons line rest ih =>
    exact ih (andThen_readFrom h (hRest line List.mem_cons_self))
      fun l hl => hRest l (List.mem_cons_of_mem _ hl)

theorem ofLine_readFrom (hLines : KeepsStatements lines) (mode : Mode) (line : Line)
    (hMode : mode.ReadFrom conv lines) (ht : lines line.text) :
    (ofLine conv mode line).ReadFrom conv lines := by
  -- the statements inside of a line are shorter than the line
  induction hLength : line.text.length using Nat.strong_induction_on generalizing mode line with
  | _ length ih =>
    subst hLength
    have hStep : (Step.of conv mode line).ReadFrom conv lines := Step.of_readFrom hLines hMode ht
    rw [ofLine_eq]
    refine foldl_read_readFrom ⟨hStep.mode, hStep.findings⟩ fun l hl mode' hMode' => ?_
    obtain ⟨s, hs, rfl⟩ := List.mem_map.mp hl
    exact ih _ (Step.length_lt_of_mem_inner hs) mode' ⟨line.number, s⟩ hMode' (hStep.inner s hs) rfl

/-- Reading lines of a class leaves only what was read from lines of that class. -/
theorem ofLines_readFrom (hLines : KeepsStatements lines) {given : List Line}
    (hGiven : ∀ line ∈ given, lines line.text) : (ofLines conv given).ReadFrom conv lines :=
  foldl_read_readFrom ⟨trivial, by simp⟩ fun line hMem mode hMode =>
    ofLine_readFrom hLines mode line hMode (hGiven line hMem)

theorem atEnd_readFrom {reading : Reading} (h : reading.ReadFrom conv lines) :
    ∀ finding ∈ reading.atEnd, finding.ReadFrom conv lines := by
  obtain ⟨mode, findings⟩ := reading
  obtain ⟨hMode, hFindings⟩ := h
  intro finding hMem
  cases mode with
  | between | guarded => exact hFindings finding hMem
  | body draft =>
    rcases List.mem_append.mp hMem with hMem | hMem
    · exact hFindings finding hMem
    · cases List.mem_singleton.mp hMem
      exact hMode
  | tagBlock draft =>
    rcases List.mem_append.mp hMem with hMem | hMem
    · exact hFindings finding hMem
    · cases List.mem_singleton.mp hMem
      exact hMode.1

end Reading

/-- A node of the catalog is a draft that was closed. -/
theorem Catalog.mem_toList_ofFindings {findings : List Finding} {node : NodeDecl} :
    node ∈ (ofFindings conv findings).toList ↔
      ∃ draft, .closed draft ∈ findings ∧ draft.closedNode conv = node := by
  rw [toList_ofFindings, List.mem_filterMap]
  constructor
  · rintro ⟨finding, hMem, hNode⟩
    cases finding with
    | closed draft => exact ⟨draft, hMem, Option.some.inj hNode⟩
    | skippedLine _ | skippedHeader _ _ | unclosed _ => cases hNode
  · rintro ⟨draft, hMem, rfl⟩
    exact ⟨.closed draft, hMem, rfl⟩

/-- The nodes of a source come from its cleaned lines. -/
theorem Catalog.readFrom_of_mem_ofSource (hLines : KeepsStatements lines) {source : Text}
    (hSource : ∀ line ∈ Line.ofSource source, lines line.text) {node : NodeDecl}
    (h : node ∈ (ofSource conv source).toList) :
    ∃ draft, Draft.ReadFrom conv lines draft ∧ draft.closedNode conv = node := by
  obtain ⟨draft, hMem, hNode⟩ := mem_toList_ofFindings.mp h
  exact ⟨draft, Reading.atEnd_readFrom (Reading.ofLines_readFrom hLines hSource) _ hMem, hNode⟩

end NodeScaffold
