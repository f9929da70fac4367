import NodeScaffold.Log.Findings
import NodeScaffold.Proofs.BodyMoments
import NodeScaffold.Proofs.SourcePlaces

/-! # What the log tells

The events of a source tell its nodes one by one, each with what is worth a remark about it, and
then the body that the source ends in and the nodes that touching leaves out. Each line number that
an event shows is that of a line with the text that it is about. -/
namespace NodeScaffold
set_option autoImplicit false

def NodeDecl.event (node : NodeDecl) : Event :=
  .node node.name node.base? node.fields.length node.tags

namespace Event

def isNode : Event → Bool
  | .node _ _ _ _ => true
  | _ => false

/-- The events of reading, but for that of an unclosed body. -/
def isOfReading : Event → Bool
  | .skippedLine _ _ | .skippedHeader _ _ | .emptyTagBlock _ _ | .node _ _ _ _ | .noFields _
  | .duplicateName _ => true
  | _ => false

/-- The line that an event shows is one of the source, and holds what the event is about. -/
def HasTrueLine (source : Text) : Event → Prop
  | .skippedLine line text => Line.StandsIn source ⟨line, text⟩
  | .skippedHeader name line | .unclosedBody name line | .emptyTagBlock name line =>
    Line.HeaderStandsIn source name line
  | .node _ _ _ _ | .noFields _ | .duplicateName _ | .noTouchArm _ | .catalogRead _ _ | .wrote _ _
  | .upToDate _ | .allUpToDate _ => True

end Event

/-- The event of a node among the others: which events come right before and right behind it, the
moments that have read it and the nodes before it being given. -/
structure NodeDecl.ToldIn (conv : Conventions) (earlier : List NodeDecl) (node : NodeDecl)
    (header : Moment) (body : List Moment) (before after : List Event) : Prop where
  told : before.filter Event.isNode = earlier.map event
  emptyBlock : ∀ name line, before.getLast? = some (.emptyTagBlock name line) ↔
    OpensEmptyBlock conv body ∧ name = node.name ∧ line = header.line.number
  impliedTag : OpensEmptyBlock conv body → node.tags = [conv.impliedTag node.name]
  noFields : ∀ name, after.head? = some (.noFields name) ↔ node.fields = [] ∧ name = node.name
  duplicate : ∀ name,
    (after.drop (if node.fields = [] then 1 else 0)).head? = some (.duplicateName name) ↔
      node.name ∈ earlier.map NodeDecl.name ∧ name = node.name

/-! ## Catalogs know their names -/

namespace Catalog

theorem declares_empty (name : Text) : (∅ : Catalog).declares name = false := by
  simp [declares, EmptyCollection.emptyCollection, empty]

theorem declares_push (catalog : Catalog) (node : NodeDecl) (name : Text) :
    (catalog.push node).declares name = (node.name == name || catalog.declares name) := by
  simp [declares, push, Std.HashMap.contains_insertIfNew]

theorem declares_foldl_push (nodes : List NodeDecl) (catalog : Catalog) (name : Text) :
    (nodes.foldl push catalog).declares name ↔
      name ∈ nodes.map NodeDecl.name ∨ catalog.declares name := by
  induction nodes generalizing catalog with
  | nil => simp
  | cons node nodes ih =>
    rw [List.foldl_cons, ih, declares_push, Bool.or_eq_true, beq_iff_eq, List.map_cons,
      List.mem_cons]
    constructor
    · rintro (h | rfl | h)
      · exact .inl (.inr h)
      · exact .inl (.inl rfl)
      · exact .inr h
    · rintro ((rfl | h) | h)
      · exact .inr (.inl rfl)
      · exact .inl h
      · exact .inr (.inr h)

end Catalog

/-! ## The events of findings -/

namespace Finding
variable (conv : Conventions)

theorem eventsFrom_append (known : Catalog) (first last : List Finding) :
    eventsFrom conv known (first ++ last) = eventsFrom conv known first ++
      eventsFrom conv ((first.filterMap (·.node? conv)).foldl Catalog.push known) last := by
  induction first generalizing known with
  | nil => rfl
  | cons finding first ih =>
    rw [List.cons_append, eventsFrom, eventsFrom, ih, List.append_assoc, List.filterMap_cons]
    cases finding.node? conv <;> rfl

theorem filter_isNode_events (known : Catalog) (finding : Finding) :
    (finding.events conv known).filter Event.isNode =
      (finding.node? conv).toList.map NodeDecl.event := by
  cases finding with
  | closed draft =>
    simp only [events, closedEvents, List.filter_append]
    split <;> split <;> split <;> rfl
  | skippedLine _ | skippedHeader _ _ | unclosed _ => rfl

theorem filter_isNode_eventsFrom (known : Catalog) (findings : List Finding) :
    (eventsFrom conv known findings).filter Event.isNode =
      (findings.filterMap (·.node? conv)).map NodeDecl.event := by
  induction findings generalizing known with
  | nil => rfl
  | cons finding findings ih =>
    rw [eventsFrom, List.filter_append, filter_isNode_events, ih, List.filterMap_cons]
    cases finding.node? conv <;> rfl

/-- No finding is told with a remark on an empty tag block at the end. -/
theorem getLast?_events_ne (known : Catalog) (finding : Finding) (name : Text) (line : Nat) :
    (finding.events conv known).getLast? ≠ some (.emptyTagBlock name line) := by
  cases finding with
  | closed draft =>
    simp only [events, closedEvents]
    split <;> split <;> split <;> simp
  | skippedLine _ | skippedHeader _ _ | unclosed _ => simp [events]

theorem getLast?_eventsFrom_ne (known : Catalog) (findings : List Finding) (name : Text)
    (line : Nat) :
    (eventsFrom conv known findings).getLast? ≠ some (.emptyTagBlock name line) := by
  induction findings generalizing known with
  | nil => simp [eventsFrom]
  | cons finding findings ih =>
    have hTail := ih ((finding.node? conv).elim known known.push)
    rw [eventsFrom, List.getLast?_append]
    cases hLast : (eventsFrom conv ((finding.node? conv).elim known known.push) findings).getLast?
      with
    | none => exact getLast?_events_ne conv known finding name line
    | some event =>
      rw [hLast] at hTail
      exact hTail

/-- What follows the events of a node does not start with a remark on it. -/
theorem head?_eventsFrom_append_ne (known : Catalog) (findings : List Finding)
    {rest : List Event} (hRest : ∀ event ∈ rest, ∃ name, event = .noTouchArm name) (name : Text) :
    (eventsFrom conv known findings ++ rest).head? ≠ some (.noFields name) ∧
      (eventsFrom conv known findings ++ rest).head? ≠ some (.duplicateName name) := by
  cases findings with
  | nil =>
    cases rest with
    | nil => simp [eventsFrom]
    | cons event rest =>
      obtain ⟨other, rfl⟩ := hRest event List.mem_cons_self
      simp [eventsFrom]
  | cons finding findings =>
    rw [eventsFrom]
    cases finding with
    | closed draft =>
      simp only [events, closedEvents]
      split <;> simp
    | skippedLine _ | skippedHeader _ _ | unclosed _ => simp [events]

theorem isOfReading_of_mem_events {known : Catalog} {finding : Finding}
    (hClosed : ∀ draft, finding ≠ .unclosed draft) :
    ∀ event ∈ finding.events conv known, event.isOfReading := by
  cases finding with
  | unclosed draft => exact absurd rfl (hClosed draft)
  | skippedLine _ | skippedHeader _ _ => simp [events, Event.isOfReading]
  | closed draft =>
    simp only [events, closedEvents]
    split <;> split <;> split <;> simp [Event.isOfReading]

/-- What holds of the events of each finding, whatever is known before it, holds of all events. -/
theorem forall_mem_eventsFrom {P : Event → Prop} {findings : List Finding}
    (h : ∀ finding ∈ findings, ∀ known, ∀ event ∈ finding.events conv known, P event)
    (known : Catalog) : ∀ event ∈ eventsFrom conv known findings, P event := by
  induction findings generalizing known with
  | nil => simp [eventsFrom]
  | cons finding findings ih =>
    obtain ⟨hFinding, hFindings⟩ := List.forall_mem_cons.mp h
    rw [eventsFrom, List.forall_mem_append]
    exact ⟨hFinding known, ih hFindings _⟩

end Finding

/-! ## Lines -/

def Finding.HasTrueLine (source : Text) : Finding → Prop
  | .skippedLine line => line.StandsIn source
  | .skippedHeader name line => Line.HeaderStandsIn source name line
  | .closed draft | .unclosed draft => Line.HeaderStandsIn source draft.name draft.line

section
variable {conv : Conventions} {source : Text} {moments : List Moment} {mode : Mode}

theorem Finding.HasTrueLine.events {finding : Finding} (h : finding.HasTrueLine source)
    (known : Catalog) : ∀ event ∈ finding.events conv known, event.HasTrueLine source := by
  cases finding with
  | skippedLine _ | skippedHeader _ _ | unclosed _ =>
    intro event hEvent
    cases List.mem_singleton.mp hEvent
    exact h
  | closed draft =>
    have hHeader : Line.HeaderStandsIn source draft.name draft.line := h
    simp only [Finding.events, closedEvents]
    split <;> split <;> split <;> simp [Event.HasTrueLine, hHeader]

theorem Draft.ReadBy.headerStandsIn {header : Moment} {body : List Moment} {draft : Draft}
    (h : draft.ReadBy conv header body) (hHeader : header.line.StandsIn source) :
    Line.HeaderStandsIn source draft.name draft.line := by
  obtain ⟨rest, hOpens⟩ := h.opens
  rw [h.line]
  exact hHeader.header hOpens

theorem Mode.ReadBy.headerStandsIn {past : List Moment} {draft : Draft}
    (h : mode.ReadBy conv past) (hDraft : mode.draft? = some draft)
    (hPast : ∀ moment ∈ past, moment.line.StandsIn source) :
    Line.HeaderStandsIn source draft.name draft.line := by
  cases mode with
  | between | guarded => cases hDraft
  | body _ | tagBlock _ =>
    cases hDraft
    obtain ⟨before, header, body, rfl, hRead, -⟩ := h
    exact hRead.headerStandsIn (hPast header (by simp))

/-- What is found at a moment has a true line. -/
theorem Moment.hasTrueLine {past : List Moment} {moment : Moment} {finding : Finding}
    (hRead : moment.mode.ReadBy conv past) (hPast : ∀ m ∈ past, m.line.StandsIn source)
    (hLine : moment.line.StandsIn source) (h : moment.finding? conv = some finding) :
    finding.HasTrueLine source := by
  obtain rfl | ⟨header, hFind, rfl⟩ | ⟨draft, hMode, rfl⟩ := Moment.finding?_eq_some h
  · exact hLine
  · exact hLine.header hFind
  · exact hRead.headerStandsIn (by rw [hMode]; rfl) hPast

theorem Trace.hasTrueLine (h : Trace conv .between (Line.ofSource source) moments mode) :
    (∀ finding ∈ moments.filterMap (·.finding? conv), finding.HasTrueLine source) ∧
      ∀ draft ∈ mode.draft?, Finding.HasTrueLine source (.unclosed draft) := by
  have hLines := h.standsIn
  obtain ⟨hMoments, hEnd⟩ := h.readBy
  constructor
  · intro finding hMem
    obtain ⟨moment, hMoment, hFinding⟩ := List.mem_filterMap.mp hMem
    obtain ⟨before, after, rfl⟩ := List.append_of_mem hMoment
    refine Moment.hasTrueLine (hMoments before moment after rfl) ?_ (hLines moment hMoment) hFinding
    exact fun m hm => hLines m (List.mem_append_left _ hm)
  · exact fun draft hDraft => hEnd.headerStandsIn hDraft hLines

end

/-! ## Around the event of a node -/

def Draft.blockRemark (draft : Draft) : List Event :=
  if draft.tags.isEmpty && draft.hasTagBlock then [.emptyTagBlock draft.name draft.line] else []

namespace NodeDecl

def bareRemark (node : NodeDecl) : List Event := if node.isBare then [.noFields node.name] else []

def duplicateRemark (known : Catalog) (node : NodeDecl) : List Event :=
  if known.declares node.name then [.duplicateName node.name] else []

variable {node : NodeDecl} {rest : List Event} {name : Text}

theorem head?_bareRemark_append (h : rest.head? ≠ some (.noFields name)) :
    (node.bareRemark ++ rest).head? = some (.noFields name) ↔
      node.fields = [] ∧ name = node.name := by
  rw [bareRemark, isBare]
  by_cases hFields : node.fields = []
  · simp [hFields, eq_comm]
  · simp [hFields, h]

theorem drop_bareRemark_append :
    (node.bareRemark ++ rest).drop (if node.fields = [] then 1 else 0) = rest := by
  rw [bareRemark, isBare]
  by_cases hFields : node.fields = []
  · simp [hFields]
  · simp [hFields]

theorem head?_duplicateRemark_append_ne {known : Catalog}
    (h : rest.head? ≠ some (.noFields name)) :
    (node.duplicateRemark known ++ rest).head? ≠ some (.noFields name) := by
  rw [duplicateRemark]
  split
  · simp
  · exact h

theorem head?_duplicateRemark_append {earlier : List NodeDecl}
    (h : rest.head? ≠ some (.duplicateName name)) :
    (node.duplicateRemark (earlier.foldl Catalog.push ∅) ++ rest).head? =
        some (.duplicateName name) ↔
      node.name ∈ earlier.map NodeDecl.name ∧ name = node.name := by
  have hKnown := Catalog.declares_foldl_push earlier ∅ node.name
  rw [or_iff_left (by simp [Catalog.declares_empty])] at hKnown
  rw [duplicateRemark, ← hKnown]
  by_cases hDeclares : (earlier.foldl Catalog.push ∅).declares node.name
  · simp [hDeclares, eq_comm]
  · simp [hDeclares, h]

end NodeDecl

theorem getLast?_append_blockRemark {draft : Draft} {events : List Event} {name : Text} {line : Nat}
    (h : events.getLast? ≠ some (.emptyTagBlock name line)) :
    (events ++ draft.blockRemark).getLast? = some (.emptyTagBlock name line) ↔
      (draft.tags = [] ∧ draft.hasTagBlock) ∧ name = draft.name ∧ line = draft.line := by
  rw [Draft.blockRemark]
  by_cases hBlock : draft.tags = [] ∧ draft.hasTagBlock
  · simp [hBlock, eq_comm]
  · have hRemark : (draft.tags.isEmpty && draft.hasTagBlock) = false := by simpa using hBlock
    simp [hBlock, hRemark, h]

section
variable {conv : Conventions} {source : Text} {moments : List Moment}

theorem Finding.closedEvents_eq (known : Catalog) (draft : Draft) :
    closedEvents conv known draft = draft.blockRemark ++ (draft.closedNode conv).event ::
      ((draft.closedNode conv).bareRemark ++ (draft.closedNode conv).duplicateRemark known) := by
  simp [closedEvents, Draft.blockRemark, NodeDecl.bareRemark, NodeDecl.duplicateRemark,
    NodeDecl.event]

/-- The events of a closed body between those of other findings. -/
theorem NodeDecl.exists_toldIn {header : Moment} {body : List Moment} {draft : Draft}
    {first last : List Finding} {rest : List Event}
    (hLine : draft.line = header.line.number)
    (hBlock : draft.tags = [] ∧ draft.hasTagBlock ↔ OpensEmptyBlock conv body)
    (hRest : ∀ event ∈ rest, ∃ name, event = .noTouchArm name) : ∃ before after,
      Finding.eventsFrom conv ∅ (first ++ .closed draft :: last) ++ rest =
        before ++ (draft.closedNode conv).event :: after ∧
      ToldIn conv (first.filterMap (·.node? conv)) (draft.closedNode conv) header body before
        after := by
  let known := (first.filterMap (·.node? conv)).foldl Catalog.push ∅
  have hTail := Finding.head?_eventsFrom_append_ne conv (known.push (draft.closedNode conv)) last
    hRest
  refine ⟨Finding.eventsFrom conv ∅ first ++ draft.blockRemark,
    (draft.closedNode conv).bareRemark ++ ((draft.closedNode conv).duplicateRemark known ++
      (Finding.eventsFrom conv (known.push (draft.closedNode conv)) last ++ rest)),
    ?_, ?_, ?_, ?_, ?_, ?_⟩
  · rw [Finding.eventsFrom_append, Finding.eventsFrom, Finding.events, Finding.closedEvents_eq]
    simp [Finding.node?, known]
  · rw [List.filter_append, Finding.filter_isNode_eventsFrom, Draft.blockRemark]
    split <;> simp [Event.isNode]
  · intro name line
    rw [getLast?_append_blockRemark (Finding.getLast?_eventsFrom_ne conv ∅ first name line), hBlock,
      (draft.words_closedNode conv).1, hLine]
  · intro hEmpty
    rw [(draft.words_closedNode conv).1, Draft.closedNode, if_pos (by simp [(hBlock.mpr hEmpty).1])]
  · intro name
    exact head?_bareRemark_append (head?_duplicateRemark_append_ne (hTail name).1)
  · intro name
    rw [drop_bareRemark_append]
    exact head?_duplicateRemark_append (hTail name).2

/-! ## All events of a source -/

theorem Reading.atEnd_eq (reading : Reading) :
    reading.atEnd = reading.findings ++ reading.mode.draft?.toList.map .unclosed := by
  obtain ⟨mode, findings⟩ := reading
  cases mode <;> simp [atEnd, Mode.draft?]

theorem Artifact.flatMap_events_all (nodes : List NodeDecl) :
    all.flatMap (·.events nodes) = (nodes.filter (·.isBare)).map (.noTouchArm ·.name) := by
  simp [all, events]

theorem Event.ofSource_eq (conv : Conventions) (source : Text) :
    ofSource conv source = Finding.eventsFrom conv ∅ (Finding.ofSource conv source) ++
      ((Catalog.ofSource conv source).toList.filter (·.isBare)).map (.noTouchArm ·.name) := by
  rw [ofSource, Artifact.flatMap_events_all]
  rfl

theorem exists_eq_noTouchArm (nodes : List NodeDecl) :
    ∀ event ∈ nodes.map (Event.noTouchArm ·.name), ∃ name, event = .noTouchArm name := by
  intro event hEvent
  obtain ⟨node, -, rfl⟩ := List.mem_map.mp hEvent
  exact ⟨node.name, rfl⟩

/-- What was found in a source, from the moments of its run and the mode in which it ends. -/
theorem Finding.ofSource_eq
    (h : (Reading.ofLines conv (Line.ofSource source)).findings =
      moments.filterMap (·.finding? conv)) :
    ofSource conv source = moments.filterMap (·.finding? conv) ++
      (Reading.ofLines conv (Line.ofSource source)).mode.draft?.toList.map .unclosed := by
  rw [ofSource, Reading.atEnd_eq, h]

theorem filterMap_node?_filterMap_finding? (moments : List Moment) :
    (moments.filterMap (·.finding? conv)).filterMap (·.node? conv) =
      moments.filterMap (·.node? conv) := by
  rw [List.filterMap_filterMap]
  rfl

theorem Catalog.toList_ofSource_of_findings
    (h : (Reading.ofLines conv (Line.ofSource source)).findings =
      moments.filterMap (·.finding? conv)) :
    (ofSource conv source).toList = moments.filterMap (·.node? conv) := by
  rw [ofSource, toList_ofFindings, Finding.ofSource_eq h, List.filterMap_append,
    filterMap_node?_filterMap_finding?]
  simp [Finding.node?]

/-- Each node has its event, with the remarks that the moments of its reading call for. -/
theorem Trace.exists_toldIn {earlier later : List NodeDecl} {node : NodeDecl}
    (h : Trace conv .between (Line.ofSource source) moments
      (Reading.ofLines conv (Line.ofSource source)).mode)
    (hFindings : (Reading.ofLines conv (Line.ofSource source)).findings =
      moments.filterMap (·.finding? conv))
    (hNodes : moments.filterMap (·.node? conv) = earlier ++ node :: later) :
    ∃ past header body last future before after,
      moments = past ++ header :: (body ++ last :: future) ∧
      past.filterMap (·.node? conv) = earlier ∧
      ReadsNode conv node header body last ∧
      Event.ofSource conv source = before ++ node.event :: after ∧
      node.ToldIn conv earlier header body before after := by
  obtain ⟨first, rest, rfl, hEarlier, hRest⟩ := List.filterMap_eq_append_iff.mp hNodes
  obtain ⟨silent, last, future, rfl, hSilent, hLast, -⟩ := List.filterMap_eq_cons_iff.mp hRest
  rw [← List.append_assoc] at h hFindings ⊢
  have hBefore : (first ++ silent).filterMap (·.node? conv) = earlier := by
    rw [List.filterMap_append, hEarlier, List.filterMap_eq_nil_iff.mpr hSilent, List.append_nil]
  obtain ⟨past, header, body, draft, hSplit, hReads, hFinding, rfl, hLine, hBlock⟩ :=
    h.exists_readsNode hLast
  have hFound : Finding.ofSource conv source = (first ++ silent).filterMap (·.finding? conv) ++
      .closed draft :: (future.filterMap (·.finding? conv) ++
        (Reading.ofLines conv (Line.ofSource source)).mode.draft?.toList.map .unclosed) := by
    rw [Finding.ofSource_eq hFindings, List.filterMap_append, List.filterMap_cons, hFinding,
      List.append_assoc]
    rfl
  have hTouch := exists_eq_noTouchArm ((Catalog.ofSource conv source).toList.filter (·.isBare))
  obtain ⟨before, after, hEvents, hTold⟩ := NodeDecl.exists_toldIn hLine hBlock hTouch
  rw [← hFound, ← Event.ofSource_eq] at hEvents
  rw [filterMap_node?_filterMap_finding?, hBefore] at hTold
  have hInner : (header :: body).filterMap (·.node? conv) = [] := by
    refine List.filterMap_eq_nil_iff.mpr fun moment hMoment => ?_
    rw [Moment.node?, hReads.silent moment hMoment]
    rfl
  rw [hSplit, List.filterMap_append, hInner, List.append_nil] at hBefore
  refine ⟨past, header, body, last, future, before, after, ?_, hBefore, hReads, hEvents, hTold⟩
  rw [hSplit, List.append_assoc, List.cons_append]

/-- The reader itself finds no unclosed body; only the end of the source does. -/
theorem unclosed_notMem_filterMap_finding? (moments : List Moment) (draft : Draft) :
    .unclosed draft ∉ moments.filterMap (·.finding? conv) := by
  intro hMem
  obtain ⟨moment, -, hFinding⟩ := List.mem_filterMap.mp hMem
  obtain h | ⟨header, -, h⟩ | ⟨draft, -, h⟩ := Moment.finding?_eq_some hFinding <;> cases h

end

/-- The log tells the truth about a source. There is one event for each node, with its name, base,
number of fields and tags; right before it stands the remark on an empty tag block exactly if the
moments of its body opened one and read no tag, and right behind it those on missing fields and on a
name that an earlier node has. The body that the source ends in, if any, comes after all that, and
then the nodes that touching leaves out. Every line that is shown holds what is told of it. -/
theorem log_tells_source (conv : Conventions) (source : Text) : ∃ moments,
    Trace conv .between (Line.ofSource source) moments
      (Reading.ofLines conv (Line.ofSource source)).mode ∧
    moments.filterMap (·.node? conv) = (Catalog.ofSource conv source).toList ∧
    (Event.ofSource conv source).filter Event.isNode =
      (Catalog.ofSource conv source).toList.map NodeDecl.event ∧
    (∀ earlier node later, (Catalog.ofSource conv source).toList = earlier ++ node :: later →
      ∃ past header body last future before after,
        moments = past ++ header :: (body ++ last :: future) ∧
        past.filterMap (·.node? conv) = earlier ∧
        ReadsNode conv node header body last ∧
        Event.ofSource conv source = before ++ node.event :: after ∧
        node.ToldIn conv earlier header body before after) ∧
    (∃ told, (∀ event ∈ told, event.isOfReading) ∧
      Event.ofSource conv source = told ++
        (Reading.ofLines conv (Line.ofSource source)).mode.draft?.toList.map
          (fun draft => .unclosedBody draft.name draft.line) ++
        ((Catalog.ofSource conv source).toList.filter (·.isBare)).map (.noTouchArm ·.name)) ∧
    ∀ event ∈ Event.ofSource conv source, event.HasTrueLine source := by
  obtain ⟨moments, hTrace, hFindings⟩ := Trace.exists_ofLines conv (Line.ofSource source)
  have hNodes := Catalog.toList_ofSource_of_findings hFindings
  have hFound := Finding.ofSource_eq hFindings
  have hTouch := exists_eq_noTouchArm ((Catalog.ofSource conv source).toList.filter (·.isBare))
  obtain ⟨hLines, hEnd⟩ := hTrace.hasTrueLine
  refine ⟨moments, hTrace, hNodes.symm, ?_, ?_, ?_, ?_⟩
  · have hOthers : (((Catalog.ofSource conv source).toList.filter (·.isBare)).map
        (Event.noTouchArm ·.name)).filter Event.isNode = [] := by
      rw [List.filter_eq_nil_iff]
      intro event hEvent
      obtain ⟨name, rfl⟩ := hTouch event hEvent
      simp [Event.isNode]
    rw [Event.ofSource_eq, List.filter_append, Finding.filter_isNode_eventsFrom, hOthers,
      List.append_nil, Catalog.ofSource, Catalog.toList_ofFindings]
  · intro earlier node later hSplit
    exact hTrace.exists_toldIn hFindings (hNodes.symm.trans hSplit)
  · refine ⟨Finding.eventsFrom conv ∅ (moments.filterMap (·.finding? conv)), ?_, ?_⟩
    · refine Finding.forall_mem_eventsFrom conv (fun finding hFinding known => ?_) ∅
      refine Finding.isOfReading_of_mem_events conv fun draft hUnclosed => ?_
      exact unclosed_notMem_filterMap_finding? moments draft (hUnclosed ▸ hFinding)
    · rw [Event.ofSource_eq, hFound, Finding.eventsFrom_append]
      cases (Reading.ofLines conv (Line.ofSource source)).mode.draft? <;> rfl
  · rw [Event.ofSource_eq, List.forall_mem_append]
    constructor
    · refine Finding.forall_mem_eventsFrom conv (fun finding hFinding known => ?_) ∅
      refine Finding.HasTrueLine.events ?_ known
      rw [hFound, List.mem_append, List.mem_map] at hFinding
      rcases hFinding with hFinding | ⟨draft, hDraft, rfl⟩
      · exact hLines finding hFinding
      · exact hEnd draft (Option.mem_toList.mp hDraft)
    · intro event hEvent
      obtain ⟨name, rfl⟩ := hTouch event hEvent
      trivial

end NodeScaffold
