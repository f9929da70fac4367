import NodeScaffold.Proofs.Passages

/-! # Several statements on a line

The statements on the line of a header are read one by one, while a line of the body is read as a
whole: it adds one field at most, and it closes the body only if it starts with the close mark. So
the statements of a declaration can be grouped on lines in any way on the line of the header, and
below it only one by one. -/
namespace NodeScaffold
open Declaration
set_option autoImplicit false

inductive BodyStatement where
  | field (member : Member)
  | close

def BodyStatement.text : BodyStatement → Text
  | field member => member.line
  | close => closing

structure SpacedStatement where
  spaces : Nat
  statement : BodyStatement

def SpacedStatement.text (spaced : SpacedStatement) : Text :=
  List.replicate spaced.spaces ' ' ++ spaced.statement.text

def groupLine (group : List SpacedStatement) : Text := group.flatMap SpacedStatement.text

def ownLines (group : List SpacedStatement) : List Text := group.map (·.statement.text)

/-- A concrete declaration without a tag block whose statements are distributed over lines: some
follow the header on its line, the others stand in groups on the lines below. -/
structure BodyLayout where
  name : Name
  base : Name
  members : List Member
  onHeader : List SpacedStatement
  below : List (List SpacedStatement)
  nonempty : ∀ group ∈ below, group ≠ []
  complete : (onHeader ++ below.flatten).map (·.statement) =
    members.map BodyStatement.field ++ [.close]

namespace BodyLayout

def declaration (layout : BodyLayout) : Declaration where
  marking := .concrete
  name := layout.name
  base := layout.base
  members := layout.members
  tags? := none

def lines (layout : BodyLayout) : List Text :=
  (layout.declaration.header ++ groupLine layout.onHeader) :: layout.below.map groupLine

def source (layout : BodyLayout) : Text := Text.join ['\n'] layout.lines

end BodyLayout

/-! ## The text of a group -/

theorem TypePart.semicolon_notMem_text (part : TypePart) : ';' ∉ part.text := by
  cases part with
  | word name => exact name.notMem_text (by decide)
  | _ => simp [TypePart.text]

namespace BodyStatement

/-- A statement has one semicolon, at its end. -/
theorem exists_text_eq (statement : BodyStatement) :
    ∃ stem, statement.text = stem ++ [';'] ∧ ';' ∉ stem := by
  cases statement with
  | field member =>
    refine ⟨member.type.text ++ ' ' :: member.name.text, ?_, ?_⟩
    · rw [text, Member.line_eq]
      simp
    · have hName : ';' ∉ member.name.text := member.name.notMem_text (by decide)
      have hType : ';' ∉ member.type.text := by
        rw [WrittenType.text, List.mem_flatMap]
        rintro ⟨part, -, hMem⟩
        exact part.semicolon_notMem_text hMem
      simp [hType, hName]
  | close => exact ⟨['\x7d'], by simp [text, closing, Text.ofString], by simp⟩

theorem mem_text {statement : BodyStatement} {c : Char} (hc : c ∈ statement.text) :
    isWordPart c ∨ c ∈ [':', '<', '>', '*', '&', ',', ' ', ';', '\x7d'] := by
  cases statement with
  | field member =>
    rcases Member.mem_line hc with hPart | hMark
    · exact .inl hPart
    · right
      simp only [List.mem_cons, List.not_mem_nil, or_false] at hMark ⊢
      tauto
  | close =>
    right
    simp only [text, closing, Text.ofString] at hc
    simp at hc ⊢
    tauto

theorem clean_text_ne_nil (statement : BodyStatement) : Line.clean statement.text ≠ [] := by
  obtain ⟨stem, hStem, -⟩ := statement.exists_text_eq
  have hSlash : '/' ∉ statement.text := fun hMem => absurd (mem_text hMem) (by decide)
  rw [Line.clean_eq_trim hSlash, hStem, Text.trim_concat (by decide),
    Text.trimStart_concat (by decide)]
  simp

end BodyStatement

theorem mem_groupLine {group : List SpacedStatement} {c : Char} (hc : c ∈ groupLine group) :
    isWordPart c ∨ c ∈ [':', '<', '>', '*', '&', ',', ' ', ';', '\x7d'] := by
  obtain ⟨spaced, -, hMem⟩ := List.mem_flatMap.mp hc
  rcases List.mem_append.mp hMem with hSpace | hMem
  · cases List.eq_of_mem_replicate hSpace
    simp
  · exact BodyStatement.mem_text hMem

theorem isBlank_of_mem_replicate {n : Nat} : ∀ c ∈ List.replicate n ' ', Text.isBlank c := by
  intro c hc
  cases List.eq_of_mem_replicate hc
  decide

theorem isGap_of_mem_replicate {n : Nat} : ∀ c ∈ List.replicate n ' ', isGap c := by
  intro c hc
  cases List.eq_of_mem_replicate hc
  decide

theorem contentsOf_text (spaced : SpacedStatement) :
    Line.contentsOf [spaced.statement.text] = [Text.trim spaced.text] := by
  have hSlash : '/' ∉ spaced.statement.text :=
    fun hMem => absurd (BodyStatement.mem_text hMem) (by decide)
  have hNonempty := spaced.statement.clean_text_ne_nil
  rw [SpacedStatement.text, Text.trim_blanks_append isBlank_of_mem_replicate,
    ← Line.clean_eq_trim hSlash]
  simp [Line.contentsOf, hNonempty]

theorem SpacedStatement.exists_text_eq (spaced : SpacedStatement) :
    ∃ stem, spaced.text = stem ++ [';'] ∧ ';' ∉ stem := by
  obtain ⟨stem, hStem, hNot⟩ := spaced.statement.exists_text_eq
  refine ⟨List.replicate spaced.spaces ' ' ++ stem, ?_, by simp [hNot]⟩
  rw [text, hStem, List.append_assoc]

/-- On the line of a header, each statement counts as a line of its own. -/
theorem bodyStatements_groupLine_append (group : List SpacedStatement) (t : Text) :
    bodyStatements (groupLine group ++ t) =
      Line.contentsOf (ownLines group) ++ bodyStatements t := by
  induction group with
  | nil => rfl
  | cons spaced group ih =>
    obtain ⟨stem, hStem, hNot⟩ := spaced.exists_text_eq
    have hLine : groupLine (spaced :: group) ++ t = stem ++ ';' :: (groupLine group ++ t) := by
      simp [groupLine, hStem]
    have hOwn : ownLines (spaced :: group) = [spaced.statement.text] ++ ownLines group := rfl
    rw [hLine, bodyStatements_append_cons hNot, ← hStem, ih, hOwn, Line.contentsOf_append,
      contentsOf_text]
    rfl

/-- Cleaning a line of such characters leaves its lexemes. -/
theorem lexemes_clean_of_mem {t : Text}
    (h : ∀ c ∈ t, isWordPart c ∨ c ∈ [':', '<', '>', '*', '&', ',', ' ', ';', '\x7d'])
    (hLast : ∀ c ∈ t.getLast?, c = ';') : Text.lexemes (Line.clean t) = Text.lexemes t := by
  have hBlanks : ∀ c ∈ t, Text.isBlank c → isGap c := by
    intro c hc hBlank
    rcases h c hc with hPart | hMark
    · simp [isBlank_of_isWordPart hPart] at hBlank
    · simp only [List.mem_cons, List.not_mem_nil, or_false] at hMark
      obtain rfl | rfl | rfl | rfl | rfl | rfl | rfl | rfl | rfl := hMark <;> revert hBlank <;>
        decide
  have hSlash : '/' ∉ t := fun hMem => absurd (h '/' hMem) (by decide)
  have hTrim : t.trim = t.trimStart := by
    rcases List.eq_nil_or_concat' t with rfl | ⟨u, c, rfl⟩
    · rfl
    · obtain rfl := hLast c (by simp)
      exact Text.trim_concat (show Text.isBlank ';' = false by decide) u
  rw [Line.clean_eq_trim hSlash, hTrim, Text.lexemes_trimStart hBlanks]

theorem getLast?_groupLine (group : List SpacedStatement) :
    ∀ c ∈ (groupLine group).getLast?, c = ';' := by
  rcases List.eq_nil_or_concat' group with rfl | ⟨before, spaced, rfl⟩
  · simp [groupLine]
  · obtain ⟨stem, hStem, -⟩ := spaced.statement.exists_text_eq
    simp [groupLine, SpacedStatement.text, hStem]

/-- The lexemes of a group are those of its statements. -/
theorem lexemes_groupLine (group : List SpacedStatement) :
    Text.lexemes (Line.clean (groupLine group)) =
      group.flatMap fun spaced => Text.lexemes (Line.clean spaced.statement.text) := by
  have hStatement (statement : BodyStatement) (u : Text) :
      Text.lexemes (statement.text ++ u) =
        Text.lexemes (Line.clean statement.text) ++ Text.lexemes u := by
    obtain ⟨stem, hStem, -⟩ := statement.exists_text_eq
    have hClean := lexemes_clean_of_mem (fun c hc => BodyStatement.mem_text hc)
      (show ∀ c ∈ statement.text.getLast?, c = ';' by simp [hStem])
    rw [hClean, hStem, List.append_assoc, List.singleton_append,
      Text.lexemes_append_mark (by decide), Text.lexemes_append_mark (by decide), Text.lexemes_nil]
    simp
  rw [lexemes_clean_of_mem (fun c => mem_groupLine) (getLast?_groupLine group)]
  induction group with
  | nil => exact Text.lexemes_nil
  | cons spaced group ih =>
    rw [groupLine, List.flatMap_cons, SpacedStatement.text, List.append_assoc,
      Text.lexemes_gaps_append isGap_of_mem_replicate, hStatement, List.flatMap_cons, ← ih]
    rfl

/-! ## Reading a group -/

theorem contains_parenOpen_groupLine (group : List SpacedStatement) :
    (TokenLine.ofText (Line.clean (groupLine group))).contains .parenOpen = false := by
  rw [TokenLine.contains_ofText, lexemes_groupLine, List.any_flatMap, List.any_eq_false]
  intro spaced _
  rw [← TokenLine.contains_ofText, Bool.not_eq_true]
  cases spaced.statement with
  | field member => exact member.contains_clean_line (.inl rfl)
  | close => with_unfolding_all decide

/-- A line of the body that starts with a field adds one field at most and does not close it. -/
theorem passes_groupLine (draft : Draft) (spaces : Nat) (member : Member)
    (group : List SpacedStatement) : ∃ draft',
    Passes .standard (.body draft)
      (Line.contentsOf [groupLine (⟨spaces, .field member⟩ :: group)]) (.body draft') [] ∧
    draft'.fields.length ≤ draft.fields.length + 1 := by
  obtain ⟨kind, first, hFirst, hKind, hWord⟩ := member.head?_lexemes_clean_line
  have hParen := contains_parenOpen_groupLine (⟨spaces, .field member⟩ :: group)
  have hHead : (Text.lexemes (Line.clean
      (groupLine (⟨spaces, .field member⟩ :: group)))).head? = some (kind, first) := by
    rw [lexemes_groupLine, List.flatMap_cons, List.head?_append]
    simp [BodyStatement.text, hFirst]
  generalize groupLine (⟨spaces, .field member⟩ :: group) = t at hParen hHead ⊢
  refine ⟨_, (Reads.line (fun number => ⟨[], rfl,
    Step.of_body_of_head? draft number hHead hKind hWord hParen⟩) ?_).passes, ?_⟩
  · intro hNil
    simp [hNil, Text.lexemes_nil] at hHead
  · cases FieldDecl.ofLine? (TokenLine.ofText (Line.clean t)) with
    | none => simp
    | some field => simp [Draft.addField]

/-- A statement alone on its line counts as without the spaces in front of it. -/
theorem contentsOf_groupLine_singleton (spaced : SpacedStatement) :
    Line.contentsOf [groupLine [spaced]] = Line.contentsOf (ownLines [spaced]) := by
  have hClean : Line.clean (groupLine [spaced]) = Line.clean spaced.statement.text := by
    rw [groupLine, List.flatMap_singleton, SpacedStatement.text,
      Line.clean_blanks_append isBlank_of_mem_replicate]
  simp [Line.contentsOf, ownLines, hClean]

theorem contentsOf_groupLines {groups : List (List SpacedStatement)}
    (h : ∀ group ∈ groups, group.length = 1) :
    Line.contentsOf (groups.map groupLine) = Line.contentsOf (ownLines groups.flatten) := by
  induction groups with
  | nil => rfl
  | cons group groups ih =>
    obtain ⟨hGroup, hGroups⟩ := List.forall_mem_cons.mp h
    obtain ⟨spaced, rfl⟩ := List.length_eq_one_iff.mp hGroup
    have hSplit : ownLines ([spaced] :: groups).flatten =
        ownLines [spaced] ++ ownLines groups.flatten := by simp [ownLines]
    rw [List.map_cons, ← List.singleton_append, Line.contentsOf_append, ih hGroups,
      contentsOf_groupLine_singleton, hSplit, Line.contentsOf_append]

/-! ## Distributing statements over lines -/

/-- A part at the end of a body is a body. -/
theorem exists_eq_of_append_eq_body {first last : List BodyStatement} {members : List Member}
    (hLast : last ≠ []) (h : first ++ last = members.map .field ++ [.close]) :
    ∃ before after, members = before ++ after ∧ first = before.map .field ∧
      last = after.map .field ++ [.close] := by
  induction first generalizing members with
  | nil => exact ⟨[], members, rfl, rfl, h⟩
  | cons statement first ih =>
    cases members with
    | nil =>
      have hNil := (List.cons.inj h).2
      simp [hLast] at hNil
    | cons member members =>
      obtain ⟨hHead, hTail⟩ := List.cons.inj h
      obtain ⟨before, after, rfl, rfl, rfl⟩ := ih hTail
      exact ⟨member :: before, after, rfl, by rw [hHead]; rfl, rfl⟩

section
variable {α : Type} {groups : List (List α)}

theorem length_le_length_flatten (h : ∀ group ∈ groups, group ≠ []) :
    groups.length ≤ groups.flatten.length := by
  induction groups with
  | nil => simp
  | cons group groups ih =>
    obtain ⟨hGroup, hGroups⟩ := List.forall_mem_cons.mp h
    have hPos := List.length_pos_iff.mpr hGroup
    have hTail := ih hGroups
    simp only [List.length_cons, List.flatten_cons, List.length_append]
    omega

theorem forall_length_eq_one (hNonempty : ∀ group ∈ groups, group ≠ [])
    (h : groups.flatten.length ≤ groups.length) : ∀ group ∈ groups, group.length = 1 := by
  induction groups with
  | nil => simp
  | cons group groups ih =>
    obtain ⟨hGroup, hGroups⟩ := List.forall_mem_cons.mp hNonempty
    have hPos := List.length_pos_iff.mpr hGroup
    have hTail := length_le_length_flatten hGroups
    simp only [List.length_cons, List.flatten_cons, List.length_append] at h
    exact List.forall_mem_cons.mpr ⟨by omega, ih hGroups (by omega)⟩

end

/-- The fields of a node that is closed on lines of the body are no more than the lines before the
one that closes it. -/
theorem passes_groupLines (draft : Draft) {groups : List (List SpacedStatement)}
    {members : List Member} (hNonempty : ∀ group ∈ groups, group ≠ [])
    (hComplete : groups.flatten.map (·.statement) = members.map .field ++ [.close]) :
    ∃ mode nodes,
      Passes .standard (.body draft) (Line.contentsOf (groups.map groupLine)) mode nodes ∧
        ∀ node ∈ nodes, node.fields.length + 1 ≤ draft.fields.length + groups.length := by
  induction groups generalizing draft members with
  | nil => simp at hComplete
  | cons group groups ih =>
    obtain ⟨hGroup, hGroups⟩ := List.forall_mem_cons.mp hNonempty
    obtain ⟨⟨spaces, statement⟩, group, rfl⟩ := List.exists_cons_of_ne_nil hGroup
    rw [List.map_cons, ← List.singleton_append, Line.contentsOf_append]
    cases members with
    | nil =>
      -- the close mark is the only statement that is left
      obtain ⟨hStatement, hRest⟩ := List.cons.inj hComplete
      cases hStatement
      obtain ⟨rfl, hFlatten⟩ := List.append_eq_nil_iff.mp (List.map_eq_nil_iff.mp hRest)
      have hNil : groups = [] := by
        rw [List.eq_nil_iff_forall_not_mem]
        intro more hMore
        exact hGroups more hMore (List.flatten_eq_nil_iff.mp hFlatten more hMore)
      subst hNil
      rw [contentsOf_groupLine_singleton]
      refine ⟨_, _, (reads_closing draft).passes.append Passes.nil, ?_⟩
      intro node hNode
      rw [List.append_nil, List.mem_singleton] at hNode
      simp [hNode, Draft.fields_closedNode]
    | cons member members =>
      obtain ⟨hStatement, hRest⟩ := List.cons.inj hComplete
      cases hStatement
      obtain ⟨draft', hFirst, hLength⟩ := passes_groupLine draft spaces member group
      by_cases hNil : groups = []
      · subst hNil
        exact ⟨_, [], hFirst.append Passes.nil, by simp⟩
      · have hLast : groups.flatten.map (·.statement) ≠ [] := by
          obtain ⟨more, groups, rfl⟩ := List.exists_cons_of_ne_nil hNil
          simp [hGroups more List.mem_cons_self]
        obtain ⟨before, after, -, -, hAfter⟩ := exists_eq_of_append_eq_body hLast
          (List.map_append.symm.trans hRest)
        obtain ⟨mode, nodes, hPasses, hBound⟩ := ih draft' hGroups hAfter
        refine ⟨mode, _, hFirst.append hPasses, fun node hNode => ?_⟩
        have hNode := hBound node hNode
        rw [List.length_cons]
        omega

namespace BodyLayout
variable (layout : BodyLayout)

theorem newline_notMem_lines : ∀ t ∈ layout.lines, '\n' ∉ t := by
  have hGroup (group : List SpacedStatement) : '\n' ∉ groupLine group :=
    fun hMem => absurd (mem_groupLine hMem) (by decide)
  have hHeader : '\n' ∉ layout.declaration.header :=
    layout.declaration.notMem_header (by decide) (by decide)
  rw [lines, List.forall_mem_cons, List.forall_mem_map]
  exact ⟨by simp [hHeader, hGroup], fun group _ => hGroup group⟩

theorem clean_headerLine :
    Line.clean (layout.declaration.header ++ groupLine layout.onHeader) =
      layout.declaration.header ++ groupLine layout.onHeader := by
  have hSlash : '/' ∉ layout.declaration.header :=
    layout.declaration.notMem_header (by decide) (by decide)
  have hSlash' : '/' ∉ groupLine layout.onHeader :=
    fun hMem => absurd (mem_groupLine hMem) (by decide)
  refine Line.clean_eq_self (by simp [hSlash, hSlash']) ?_ ?_
  · simp [header_eq, Text.ofString, show Text.isBlank 's' = false by decide]
  · intro c hc
    rw [List.getLast?_append, layout.declaration.getLast?_header] at hc
    cases hLast : (groupLine layout.onHeader).getLast? with
    | none =>
      obtain rfl : '\x7b' = c := by simpa [hLast] using hc
      decide
    | some last =>
      obtain rfl : last = c := by simpa [hLast] using hc
      cases getLast?_groupLine layout.onHeader last hLast
      decide

theorem contents_source : Line.contents layout.source =
    (layout.declaration.header ++ groupLine layout.onHeader) ::
      Line.contentsOf (layout.below.map groupLine) := by
  have hFirst : Line.contentsOf [layout.declaration.header ++ groupLine layout.onHeader] =
      [layout.declaration.header ++ groupLine layout.onHeader] := by
    simp [Line.contentsOf, layout.clean_headerLine, layout.declaration.header_ne_nil]
  rw [source, Line.contents_join layout.newline_notMem_lines, lines, ← List.singleton_append,
    Line.contentsOf_append, hFirst]
  rfl

/-- The nodes of the source, from what its body is read as. -/
theorem toList_ofSource {mode : Mode} {nodes : List NodeDecl}
    (h : Passes .standard (.body { name := layout.name.text, base := layout.base.text, line := 0 })
      (Line.contentsOf (ownLines layout.onHeader) ++ Line.contentsOf (layout.below.map groupLine))
      mode nodes) :
    (Catalog.ofSource .standard layout.source).toList = nodes := by
  have hStatements := bodyStatements_groupLine_append layout.onHeader []
  rw [List.append_nil, show bodyStatements [] = [] by rfl, List.append_nil] at hStatements
  rw [← hStatements] at h
  apply Passes.toList_ofSource
  rw [layout.contents_source]
  exact passes_header_append layout.declaration h

/-- With every statement on a line of its own the declaration is read as it was written. -/
theorem passes_ownLines :
    Passes .standard (.body { name := layout.name.text, base := layout.base.text, line := 0 })
      (Line.contentsOf (ownLines (layout.onHeader ++ layout.below.flatten))) .between
      [layout.declaration.node] := by
  have hLines : ownLines (layout.onHeader ++ layout.below.flatten) =
      layout.members.map Member.line ++ [closing] := by
    have hTexts := congrArg (List.map BodyStatement.text) layout.complete
    simpa [ownLines, Function.comp_def, BodyStatement.text] using hTexts
  rw [hLines]
  exact @passes_body layout.declaration rfl

end BodyLayout

/-- The node of a declaration is read as declared exactly if on the lines below the header there is
one statement on each, wherever the header's line ends. -/
theorem toList_ofSource_bodyLayout (layout : BodyLayout) :
    (Catalog.ofSource .standard layout.source).toList = [layout.declaration.node] ↔
      ∀ group ∈ layout.below, group.length = 1 := by
  constructor
  · intro hNodes
    by_cases hNil : layout.below = []
    · simp [hNil]
    have hLast : layout.below.flatten.map (·.statement) ≠ [] := by
      obtain ⟨group, groups, hCons⟩ := List.exists_cons_of_ne_nil hNil
      have hGroup := layout.nonempty group (by simp [hCons])
      simp [hCons, hGroup]
    have hComplete := layout.complete
    rw [List.map_append] at hComplete
    obtain ⟨before, after, hMembers, hBefore, hAfter⟩ := exists_eq_of_append_eq_body hLast hComplete
    have hOwn : ownLines layout.onHeader = before.map Member.line := by
      have hTexts := congrArg (List.map BodyStatement.text) hBefore
      simpa [ownLines, Function.comp_def, BodyStatement.text] using hTexts
    have hHeader := passes_members
      { name := layout.name.text, base := layout.base.text, line := 0 } before
    rw [← hOwn] at hHeader
    obtain ⟨mode, nodes, hBelow, hBound⟩ := passes_groupLines _ layout.nonempty hAfter
    have hMem := hBound layout.declaration.node (by
      rw [← List.nil_append nodes, ← layout.toList_ofSource (hHeader.append hBelow), hNodes]
      exact List.mem_singleton_self _)
    have hLength := congrArg List.length hAfter
    apply forall_length_eq_one layout.nonempty
    simp only [Declaration.node, BodyLayout.declaration, hMembers, List.length_map,
      List.length_append, List.length_singleton, List.length_nil] at hMem hLength
    omega
  · intro hSingle
    have hOwn := layout.passes_ownLines
    have hSplit : ownLines (layout.onHeader ++ layout.below.flatten) =
        ownLines layout.onHeader ++ ownLines layout.below.flatten := List.map_append
    rw [hSplit, Line.contentsOf_append, ← contentsOf_groupLines hSingle] at hOwn
    exact layout.toList_ofSource hOwn

/-- Two tokens on the line below the header. -/
def crowdedBody : BodyLayout where
  name := ⟨"PairSyntax", by with_unfolding_all decide⟩
  base := ⟨"SyntaxBase", isName_syntaxBase⟩
  members := [tokenMember ⟨"left", by with_unfolding_all decide⟩,
    tokenMember ⟨"right", by with_unfolding_all decide⟩]
  onHeader := []
  below := [[⟨0, .field (tokenMember ⟨"left", by with_unfolding_all decide⟩)⟩,
    ⟨1, .field (tokenMember ⟨"right", by with_unfolding_all decide⟩)⟩], [⟨0, .close⟩]]
  nonempty := by simp
  complete := rfl

/-- The first field is lost in the type of the second. -/
theorem toList_ofSource_crowdedBody :
    crowdedBody.source = Text.join ['\n']
      ["struct PairSyntax : SyntaxBase \x7b", "SyntaxToken left; SyntaxToken right;", "\x7d;"] ∧
    (Catalog.ofSource .standard crowdedBody.source).toList =
      [⟨Text.ofString "PairSyntax", some (Text.ofString "SyntaxBase"),
        [⟨Text.ofString "right", Text.ofString "SyntaxTokenleft;SyntaxToken"⟩],
        [Text.ofString "Pair"]⟩] ∧
    (Catalog.ofSource .standard crowdedBody.source).toList ≠ [crowdedBody.declaration.node] := by
  have hNodes : (Catalog.ofSource .standard crowdedBody.source).toList =
      [⟨Text.ofString "PairSyntax", some (Text.ofString "SyntaxBase"),
        [⟨Text.ofString "right", Text.ofString "SyntaxTokenleft;SyntaxToken"⟩],
        [Text.ofString "Pair"]⟩] := by
    decide +kernel
  refine ⟨congrArg (Text.join ['\n']) (by with_unfolding_all rfl), hNodes, fun hDeclared => ?_⟩
  rw [hNodes] at hDeclared
  have hFields := congrArg (List.map fun node : NodeDecl => node.fields.length) hDeclared
  simp [Declaration.node, BodyLayout.declaration, crowdedBody] at hFields

end NodeScaffold
