import NodeScaffold.Proofs.Traces

/-! # The moments of a body

Inside of a body the reader has come from a header, without finding anything since then, and what it
holds is what the moments since then have given it. -/
namespace NodeScaffold
set_option autoImplicit false

namespace Mode

def draft? : Mode → Option Draft
  | .body draft | .tagBlock draft => some draft
  | .between | .guarded => none

def isInside (mode : Mode) : Bool := mode.draft?.isSome

def isInBlock : Mode → Bool
  | .tagBlock _ => true
  | .between | .guarded | .body _ => false

end Mode

def Moment.tag? (conv : Conventions) (moment : Moment) : Option Text :=
  if moment.mode.isInBlock then
    ((conv.unqualified? moment.line.text).map (Step.entryTag conv)).filter (!·.isEmpty)
  else none

/-- A tag block is opened at these moments, and no tag is read in it. -/
def OpensEmptyBlock (conv : Conventions) (body : List Moment) : Prop :=
  (∃ moment ∈ body, moment.mode.isInBlock) ∧ ∀ moment ∈ body, moment.tag? conv = none

/-- The moments that read a node: at its header, inside of its body, and where the body is closed.
The tags are those read in between, or else the implied one. -/
structure ReadsNode (conv : Conventions) (node : NodeDecl) (header : Moment) (body : List Moment)
    (last : Moment) : Prop where
  start : header.mode = .between
  opens : ∃ base rest, node.base? = some base ∧
    Header.find? (TokenLine.ofText header.line.text) = some ⟨node.name, some base, rest⟩
  inside : ∀ moment ∈ body ++ [last], moment.mode.isInside
  silent : ∀ moment ∈ header :: body, moment.finding? conv = none
  closes : last.node? conv = some node
  tags : node.tags = if body.filterMap (·.tag? conv) = [] then [conv.impliedTag node.name]
    else body.filterMap (·.tag? conv)

/-- A draft is what a header and the moments behind it have given. -/
structure Draft.ReadBy (conv : Conventions) (header : Moment) (body : List Moment)
    (draft : Draft) : Prop where
  start : header.mode = .between
  opens : ∃ rest, Header.find? (TokenLine.ofText header.line.text) =
    some ⟨draft.name, some draft.base, rest⟩
  line : draft.line = header.line.number
  inside : ∀ moment ∈ body, moment.mode.isInside
  silent : ∀ moment ∈ header :: body, moment.finding? conv = none
  tags : draft.tags = body.filterMap (·.tag? conv)

def Mode.ReadBy (conv : Conventions) (past : List Moment) : Mode → Prop
  | .between | .guarded => True
  | .body draft => ∃ before header body, past = before ++ header :: body ∧
      draft.ReadBy conv header body ∧ draft.hasTagBlock = body.any (·.mode.isInBlock)
  | .tagBlock draft => ∃ before header body, past = before ++ header :: body ∧
      draft.ReadBy conv header body ∧ draft.hasTagBlock = true

section
variable {conv : Conventions}

/-- One moment more inside of the body. -/
theorem Draft.ReadBy.concat {header moment : Moment} {body : List Moment} {draft draft' : Draft}
    (h : draft.ReadBy conv header body) (hInside : moment.mode.isInside)
    (hSilent : moment.finding? conv = none) (hName : draft'.name = draft.name)
    (hBase : draft'.base = draft.base) (hLine : draft'.line = draft.line)
    (hTags : draft'.tags = draft.tags ++ (moment.tag? conv).toList) :
    draft'.ReadBy conv header (body ++ [moment]) := by
  refine ⟨h.start, ?_, hLine.trans h.line, ?_, ?_, ?_⟩
  · rw [hName, hBase]
    exact h.opens
  · rw [List.forall_mem_append, List.forall_mem_singleton]
    exact ⟨h.inside, hInside⟩
  · rw [← List.cons_append, List.forall_mem_append, List.forall_mem_singleton]
    exact ⟨h.silent, hSilent⟩
  · rw [hTags, h.tags, List.filterMap_append]
    cases hTag : moment.tag? conv <;> simp [hTag]

theorem Moment.tag?_of_body {draft : Draft} {line : Line} :
    Moment.tag? conv ⟨.body draft, line⟩ = none := rfl

theorem Moment.tag?_of_tagBlock {draft : Draft} {line : Line} :
    Moment.tag? conv ⟨.tagBlock draft, line⟩ =
      ((conv.unqualified? line.text).map (Step.entryTag conv)).filter (!·.isEmpty) := rfl

/-- Each step keeps what a mode has to do with the moments before it. -/
theorem Mode.ReadBy.step {past : List Moment} {moment : Moment}
    (h : moment.mode.ReadBy conv past) :
    (moment.step conv).mode.ReadBy conv (past ++ [moment]) := by
  obtain ⟨mode, line⟩ := moment
  have hFinding : Moment.finding? conv ⟨mode, line⟩ = (Step.of conv mode line).findings.head? := rfl
  have hCase := Step.case_of conv line mode
  rw [Moment.step]
  dsimp only at h ⊢
  generalize Step.of conv mode line = step at hCase hFinding ⊢
  cases hCase with
  | guard | skipHeader | pass | skipLine | close => trivial
  | @openBody name base body hFind =>
    refine ⟨past, _, [], rfl, ⟨rfl, ⟨body, hFind⟩, rfl, by simp, ?_, rfl⟩, rfl⟩
    rwa [List.forall_mem_singleton]
  | openBlock draft =>
    obtain ⟨before, header, body, rfl, hDraft, -⟩ := h
    refine ⟨before, header, _, List.append_assoc .., hDraft.concat rfl hFinding rfl rfl rfl ?_, rfl⟩
    simp [Moment.tag?_of_body]
  | field draft field =>
    obtain ⟨before, header, body, rfl, hDraft, hBlock⟩ := h
    refine ⟨before, header, _, List.append_assoc .., hDraft.concat rfl hFinding rfl rfl rfl ?_, ?_⟩
    · simp [Moment.tag?_of_body, Draft.addField]
    · simp [Draft.addField, hBlock, Mode.isInBlock]
  | ignore draft =>
    obtain ⟨before, header, body, rfl, hDraft, hBlock⟩ := h
    refine ⟨before, header, _, List.append_assoc .., hDraft.concat rfl hFinding rfl rfl rfl ?_, ?_⟩
    · simp [Moment.tag?_of_body]
    · simp [hBlock, Mode.isInBlock]
  | @tag draft entry hEntry hTag =>
    obtain ⟨before, header, body, rfl, hDraft, hBlock⟩ := h
    refine ⟨before, header, _, List.append_assoc .., hDraft.concat rfl hFinding rfl rfl rfl ?_,
      hBlock⟩
    simp [Moment.tag?_of_tagBlock, hEntry, hTag, Draft.addTag, Option.filter]
  | @blankTag draft entry hEntry hTag =>
    obtain ⟨before, header, body, rfl, hDraft, hBlock⟩ := h
    refine ⟨before, header, _, List.append_assoc .., hDraft.concat rfl hFinding rfl rfl rfl ?_,
      hBlock⟩
    simp [Moment.tag?_of_tagBlock, hEntry, hTag, Option.filter]
  | closeBlock draft hEntry =>
    obtain ⟨before, header, body, rfl, hDraft, hBlock⟩ := h
    refine ⟨before, header, _, List.append_assoc .., hDraft.concat rfl hFinding rfl rfl rfl ?_, ?_⟩
    · simp [Moment.tag?_of_tagBlock, hEntry]
    · simp [hBlock, Mode.isInBlock]
  | ignoreEntry draft hEntry =>
    obtain ⟨before, header, body, rfl, hDraft, hBlock⟩ := h
    refine ⟨before, header, _, List.append_assoc .., hDraft.concat rfl hFinding rfl rfl rfl ?_,
      hBlock⟩
    simp [Moment.tag?_of_tagBlock, hEntry]

/-- A node is found where the reader stands in its body. -/
theorem Moment.exists_draft_of_node? {moment : Moment} {node : NodeDecl}
    (h : moment.node? conv = some node) : ∃ draft, moment.mode = .body draft ∧
      moment.finding? conv = some (.closed draft) ∧ node = draft.closedNode conv := by
  obtain ⟨finding, hFinding, hNode⟩ := Option.bind_eq_some_iff.mp h
  obtain rfl | ⟨header, -, rfl⟩ | ⟨draft, hMode, rfl⟩ := Moment.finding?_eq_some hFinding
  · cases hNode
  · cases hNode
  · exact ⟨draft, hMode, hFinding, (Option.some.inj hNode).symm⟩

theorem Draft.ReadBy.opensEmptyBlock_iff {header : Moment} {body : List Moment} {draft : Draft}
    (h : draft.ReadBy conv header body)
    (hBlock : draft.hasTagBlock = body.any (·.mode.isInBlock)) :
    draft.tags = [] ∧ draft.hasTagBlock ↔ OpensEmptyBlock conv body := by
  rw [h.tags, hBlock, OpensEmptyBlock, List.filterMap_eq_nil_iff, List.any_eq_true]
  exact and_comm

theorem Trace.readBy {lines : List Line} {moments : List Moment} {mode : Mode}
    (h : Trace conv .between lines moments mode) :
    (∀ before moment after, moments = before ++ moment :: after →
      moment.mode.ReadBy conv before) ∧ mode.ReadBy conv moments := by
  have hStart : Mode.ReadBy conv [] .between := trivial
  simpa using h.invariant (fun _ _ => Mode.ReadBy.step) hStart

/-- Where a node is closed, the moments since its header have read it, and the draft knows the line
of the header and whether they have opened an empty tag block. -/
theorem Trace.exists_readsNode {lines : List Line} {before after : List Moment} {last : Moment}
    {mode : Mode} {node : NodeDecl}
    (h : Trace conv .between lines (before ++ last :: after) mode)
    (hNode : last.node? conv = some node) : ∃ earlier header body draft,
      before = earlier ++ header :: body ∧ ReadsNode conv node header body last ∧
      last.finding? conv = some (.closed draft) ∧ node = draft.closedNode conv ∧
      draft.line = header.line.number ∧
      (draft.tags = [] ∧ draft.hasTagBlock ↔ OpensEmptyBlock conv body) := by
  obtain ⟨draft, hMode, hFinding, hClosed⟩ := Moment.exists_draft_of_node? hNode
  have hPast := h.readBy.1 before last after rfl
  rw [hMode] at hPast
  obtain ⟨earlier, header, body, rfl, hDraft, hBlock⟩ := hPast
  refine ⟨earlier, header, body, draft, rfl, ?_, hFinding, hClosed, hDraft.line,
    hDraft.opensEmptyBlock_iff hBlock⟩
  obtain ⟨rest, hOpens⟩ := hDraft.opens
  have hName := draft.words_closedNode conv
  rw [← hClosed] at hName
  refine ⟨hDraft.start, ⟨draft.base, rest, hName.2, by rw [hName.1]; exact hOpens⟩, ?_,
    hDraft.silent, hNode, ?_⟩
  · rw [List.forall_mem_append, List.forall_mem_singleton, hMode]
    exact ⟨hDraft.inside, rfl⟩
  · rw [← hDraft.tags, hName.1, hClosed, Draft.closedNode]
    simp only [List.isEmpty_iff]
    split <;> rfl

end

end NodeScaffold
