import NodeScaffold.Proofs.ReaderInvariant
import NodeScaffold.Proofs.Sections
import NodeScaffold.Proofs.StatementGroups

/-! # Declarations that share a line

A line outside of every declaration that starts with an abstract mark, or stands behind a lone one,
is left out as a whole. A mark further right on a line is met where a statement starts, and only its
own declaration is left out. So a marked declaration takes those behind it on its line with it
exactly if it is the first. -/
namespace NodeScaffold
open Declaration
set_option autoImplicit false

/-- A declaration of tokens on one line, with the spaces in front of it, of each field and of the
close mark. -/
structure LineDecl where
  spaces : Nat
  marking : Marking
  name : Name
  base : Name
  fields : List (Nat × Name)
  closeSpaces : Nat

namespace LineDecl

def isMarked (decl : LineDecl) : Bool := decl.marking ≠ .concrete

def declaration (decl : LineDecl) : Declaration where
  marking := decl.marking
  name := decl.name
  base := decl.base
  members := decl.fields.map fun field => tokenMember field.2
  tags? := none

def statements (decl : LineDecl) : List SpacedStatement :=
  decl.fields.map (fun field => ⟨field.1, .field (tokenMember field.2)⟩) ++
    [⟨decl.closeSpaces, .close⟩]

def mark (decl : LineDecl) : Text :=
  if decl.marking = .inFront then "abstract " else []

def text (decl : LineDecl) : Text :=
  List.replicate decl.spaces ' ' ++
    (decl.mark ++ (decl.declaration.header ++ groupLine decl.statements))

end LineDecl

/-- A line of declarations. A lone mark stands above the line and is about the first of them. -/
structure SharedLine where
  first : LineDecl
  others : List LineDecl
  inFront : ∀ decl ∈ others, decl.marking ≠ .alone

namespace SharedLine

def decls (line : SharedLine) : List LineDecl := line.first :: line.others

def lines (line : SharedLine) : List Text :=
  (if line.first.marking = .alone then [Text.ofString "abstract"] else []) ++
    [line.decls.flatMap LineDecl.text]

def source (lines : List SharedLine) : Text := Text.join ['\n'] (lines.flatMap SharedLine.lines)

def nodes (line : SharedLine) : List NodeDecl :=
  if line.first.isMarked then []
  else (line.decls.filter (!·.isMarked)).map (·.declaration.node)

end SharedLine

namespace LineDecl
variable (decl : LineDecl)

theorem ownLines_statements :
    ownLines decl.statements = decl.declaration.members.map Member.line ++ [closing] := by
  simp [ownLines, statements, declaration, BodyStatement.text]

theorem exists_statements_eq : ∃ first rest, decl.statements = first :: rest := by
  apply List.exists_cons_of_ne_nil
  simp [statements]

theorem mem_mark {c : Char} (hc : c ∈ decl.mark) : isWordPart c ∨ c = ' ' := by
  have hWord : ∀ d ∈ Text.ofString "abstract ", isWordPart d ∨ d = ' ' := by
    simp [Text.ofString, isWordPart]
  rw [mark] at hc
  split at hc
  · exact hWord c hc
  · cases hc

theorem head?_mark_append (t : Text) :
    ∀ c ∈ (decl.mark ++ (decl.declaration.header ++ t)).head?, Text.isBlank c = false := by
  rw [mark, header_eq]
  split
  · simp [Text.ofString, show Text.isBlank 'a' = false by decide]
  · simp [Text.ofString, show Text.isBlank 's' = false by decide]

/-- The first statement of a declaration includes its header. -/
theorem bodyStatements_text_append {first : SpacedStatement} {rest : List SpacedStatement}
    (h : decl.statements = first :: rest) (t : Text) :
    bodyStatements (decl.text ++ t) =
      (decl.mark ++ (decl.declaration.header ++ first.text)) ::
        (Line.contentsOf (ownLines rest) ++ bodyStatements t) := by
  obtain ⟨stem, hStem, hNot⟩ := first.exists_text_eq
  have hText : decl.text ++ t = List.replicate decl.spaces ' ' ++
      (decl.mark ++ (decl.declaration.header ++ stem)) ++ ';' :: (groupLine rest ++ t) := by
    simp [text, h, groupLine, hStem]
  have hMark : ';' ∉ decl.mark := fun hMem => absurd (decl.mem_mark hMem) (by decide)
  have hHeader : ';' ∉ decl.declaration.header :=
    decl.declaration.notMem_header (by decide) (by decide)
  have hTrim : Text.trim (List.replicate decl.spaces ' ' ++
      (decl.mark ++ (decl.declaration.header ++ stem)) ++ [';']) =
      decl.mark ++ (decl.declaration.header ++ first.text) := by
    rw [List.append_assoc, Text.trim_blanks_append isBlank_of_mem_replicate, hStem]
    simp only [List.append_assoc]
    refine Text.trim_eq_self (decl.head?_mark_append _) ?_
    simp [show Text.isBlank ';' = false by decide]
  rw [hText, bodyStatements_append_cons (by simp [hMark, hHeader, hNot]), hTrim,
    bodyStatements_groupLine_append]

theorem passes_statements :
    Passes .standard (.body { name := decl.name.text, base := decl.base.text, line := 0 })
      (Line.contentsOf (ownLines decl.statements)) .between [decl.declaration.node] := by
  rw [ownLines_statements]
  exact @passes_body decl.declaration rfl

end LineDecl

/-- Outside of every declaration, statements of a body mean nothing. -/
theorem passes_between_ownLines (decl : Declaration) (group : List SpacedStatement) :
    Passes .standard .between (Line.contentsOf (ownLines group)) .between [] := by
  induction group with
  | nil => exact Passes.nil
  | cons spaced group ih =>
    have hStatement : Reads .standard .between [spaced.statement.text] .between [] := by
      cases spaced.statement with
      | field member => exact @reads_bodyLine decl [member] [] _ (by simp [BodyStatement.text])
      | close => exact @reads_bodyLine decl [] [] _ (by simp [BodyStatement.text])
    have hOwn : ownLines (spaced :: group) = [spaced.statement.text] ++ ownLines group := rfl
    rw [hOwn, Line.contentsOf_append]
    exact hStatement.passes.append ih

/-- A text with the mark in front of a header is left out. -/
theorem passes_markInFront (decl : Declaration) (t : Text) :
    Passes .standard .between [Text.ofString "abstract " ++ (decl.header ++ t)] .between [] := by
  have hLine : Text.ofString "abstract " ++ (decl.header ++ t) =
      Text.ofString "abstract" ++ ' ' :: (decl.header ++ t) := by simp [Text.ofString]
  obtain ⟨stem, hStem, hHeader⟩ := decl.exists_header_eq
  have hLexemes : Text.lexemes (Text.ofString "abstract " ++ (decl.header ++ t)) =
      (.ident, Text.ofString "abstract") :: Text.lexemes (decl.header ++ t) := by
    rw [hLine, Text.lexemes_word_append (by with_unfolding_all decide) (by simp [isWordPart]),
      Text.lexemes_gap (by decide), wordKind_of_isName (by with_unfolding_all decide)]
  have hMark : (TokenLine.ofText (Text.ofString "abstract " ++ (decl.header ++ t))).startsWith
      Conventions.standard.abstractWord = true := by
    rw [TokenLine.startsWith_ofText, hLexemes]
    simp [Conventions.standard]
  have hLength : (TokenLine.ofText (Text.ofString "abstract " ++
      (decl.header ++ t))).tokens.length ≠ 1 := by
    rw [TokenLine.length_tokens_ofText, hLexemes, hStem, List.append_assoc,
      List.singleton_append, Text.lexemes_append_mark (by decide)]
    simp
  generalize Text.ofString "abstract " ++ (decl.header ++ t) = line at hMark hLength
  cases hFind : Header.find? (TokenLine.ofText line) with
  | none =>
    exact @Passes.step _ _ _ _ [] (by simp [Step.of, Step.between, hMark, hLength, hFind])
  | some header =>
    exact @Passes.step _ _ _ _ [.skippedHeader header.name 0]
      (by simp [Step.of, Step.between, hMark, hLength, hFind])

/-- Behind a lone mark, a line that starts with a header is left out. -/
theorem passes_guarded (decl : Declaration) (t : Text) :
    Passes .standard .guarded [decl.header ++ t] .between [] :=
  @Passes.step _ _ _ _ [.skippedLine ⟨0, decl.header ++ t⟩]
    (by simp [Step.of, Step.guarded, decl.startsWith_header_append])

/-- Behind the first of its line, a declaration is left out alone if it is marked. -/
theorem LineDecl.passes_text_append {decl : LineDecl} (hAlone : decl.marking ≠ .alone) {t : Text}
    {nodes : List NodeDecl} (h : Passes .standard .between (bodyStatements t) .between nodes) :
    Passes .standard .between (bodyStatements (decl.text ++ t)) .between
      ((if decl.isMarked then [] else [decl.declaration.node]) ++ nodes) := by
  obtain ⟨first, rest, hStatements⟩ := decl.exists_statements_eq
  rw [decl.bodyStatements_text_append hStatements]
  cases hMarking : decl.marking with
  | alone => exact absurd hMarking hAlone
  | inFront =>
    have hBody := passes_between_ownLines decl.declaration rest
    have hAll := (passes_markInFront decl.declaration first.text).append (hBody.append h)
    simpa [LineDecl.mark, LineDecl.isMarked, hMarking] using hAll
  | concrete =>
    have hFirst : bodyStatements first.text = Line.contentsOf (ownLines [first]) := by
      have hGroup := bodyStatements_groupLine_append [first] []
      simpa [groupLine, show bodyStatements [] = [] by rfl] using hGroup
    have hOwn : ownLines decl.statements = ownLines [first] ++ ownLines rest := by
      rw [hStatements]
      rfl
    have hBody := decl.passes_statements.append h
    rw [hOwn, Line.contentsOf_append, ← hFirst, List.append_assoc] at hBody
    have hAll := passes_header_append decl.declaration hBody
    simpa [LineDecl.mark, LineDecl.isMarked, hMarking] using hAll

theorem passes_others {decls : List LineDecl} (h : ∀ decl ∈ decls, decl.marking ≠ .alone) :
    Passes .standard .between (bodyStatements (decls.flatMap LineDecl.text)) .between
      ((decls.filter (!·.isMarked)).map (·.declaration.node)) := by
  induction decls with
  | nil => exact Passes.nil
  | cons decl decls ih =>
    obtain ⟨hDecl, hDecls⟩ := List.forall_mem_cons.mp h
    have hBoth := LineDecl.passes_text_append hDecl (ih hDecls)
    rw [List.flatMap_cons, List.filter_cons]
    cases hMarked : decl.isMarked with
    | true => simpa [hMarked] using hBoth
    | false => simpa [hMarked] using hBoth

namespace SharedLine
variable (line : SharedLine)

theorem passes_decls : Passes .standard (if line.first.marking = .alone then .guarded else .between)
    [line.first.mark ++ (line.first.declaration.header ++ (groupLine line.first.statements ++
      line.others.flatMap LineDecl.text))] .between line.nodes := by
  have hOthers := passes_others line.inFront
  rw [nodes]
  cases hMarking : line.first.marking with
  | alone =>
    have hLine := passes_guarded line.first.declaration (groupLine line.first.statements ++
      line.others.flatMap LineDecl.text)
    simpa [LineDecl.mark, LineDecl.isMarked, hMarking] using hLine
  | inFront =>
    have hLine := passes_markInFront line.first.declaration (groupLine line.first.statements ++
      line.others.flatMap LineDecl.text)
    simpa [LineDecl.mark, LineDecl.isMarked, hMarking] using hLine
  | concrete =>
    have hBody := line.first.passes_statements.append hOthers
    rw [← bodyStatements_groupLine_append, ← List.append_nil (bodyStatements _)] at hBody
    have hLine := passes_header_append line.first.declaration hBody
    simpa [LineDecl.mark, LineDecl.isMarked, hMarking, decls] using hLine

theorem mem_flatMap_text {decls : List LineDecl} {c : Char} (hc : c ∈ decls.flatMap LineDecl.text) :
    c ≠ '/' ∧ c ≠ '\n' := by
  obtain ⟨decl, -, hText⟩ := List.mem_flatMap.mp hc
  simp only [LineDecl.text, List.mem_append] at hText
  rcases hText with hSpace | hMark | hHeader | hGroup
  · cases List.eq_of_mem_replicate hSpace
    decide
  · constructor <;> rintro rfl <;> exact absurd (decl.mem_mark hMark) (by decide)
  · constructor <;> rintro rfl
    · exact decl.declaration.notMem_header (by decide) (by decide) hHeader
    · exact decl.declaration.notMem_header (by decide) (by decide) hHeader
  · constructor <;> rintro rfl <;> exact absurd (mem_groupLine hGroup) (by decide)

theorem getLast?_flatMap_text (decls : List LineDecl) :
    ∀ c ∈ (decls.flatMap LineDecl.text).getLast?, c = ';' := by
  rcases List.eq_nil_or_concat' decls with rfl | ⟨before, decl, rfl⟩
  · simp
  · obtain ⟨stem, hStem, -⟩ := SpacedStatement.exists_text_eq ⟨decl.closeSpaces, .close⟩
    simp [LineDecl.text, LineDecl.statements, groupLine, hStem]

theorem clean_flatMap_text : Line.clean (line.decls.flatMap LineDecl.text) =
    line.first.mark ++ (line.first.declaration.header ++ (groupLine line.first.statements ++
      line.others.flatMap LineDecl.text)) := by
  have hText : line.decls.flatMap LineDecl.text = List.replicate line.first.spaces ' ' ++
      (line.first.mark ++ (line.first.declaration.header ++ (groupLine line.first.statements ++
        line.others.flatMap LineDecl.text))) := by
    simp [decls, LineDecl.text]
  have hSlash : '/' ∉ line.decls.flatMap LineDecl.text := fun hMem => (mem_flatMap_text hMem).1 rfl
  have hLast := getLast?_flatMap_text line.decls
  rw [hText] at hSlash hLast ⊢
  rw [Line.clean_blanks_append isBlank_of_mem_replicate]
  refine Line.clean_eq_self (fun hMem => hSlash (List.mem_append_right _ hMem))
    (line.first.head?_mark_append _) fun c hc => ?_
  rw [List.getLast?_append, Option.mem_def.mp hc] at hLast
  cases hLast c rfl
  decide

theorem passes_lines :
    Passes .standard .between (Line.contentsOf line.lines) .between line.nodes := by
  have hDecls := line.passes_decls
  have hText : Line.contentsOf [line.decls.flatMap LineDecl.text] =
      [line.first.mark ++ (line.first.declaration.header ++ (groupLine line.first.statements ++
        line.others.flatMap LineDecl.text))] := by
    simp [Line.contentsOf, clean_flatMap_text, line.first.declaration.header_ne_nil]
  rw [← hText] at hDecls
  rw [lines, Line.contentsOf_append]
  split
  · next hAlone =>
    rw [if_pos hAlone] at hDecls
    exact reads_loneMark.passes.append hDecls
  · next hAlone =>
    rw [if_neg hAlone] at hDecls
    exact hDecls

theorem newline_notMem_lines : ∀ t ∈ line.lines, '\n' ∉ t := by
  have hText : '\n' ∉ line.decls.flatMap LineDecl.text := fun hMem => (mem_flatMap_text hMem).2 rfl
  rw [lines, List.forall_mem_append, List.forall_mem_singleton]
  refine ⟨?_, hText⟩
  split <;> simp [Text.ofString]

theorem passes_flatMap_lines (lines : List SharedLine) :
    Passes .standard .between (Line.contentsOf (lines.flatMap SharedLine.lines)) .between
      (lines.flatMap nodes) := by
  induction lines with
  | nil => exact Passes.nil
  | cons line lines ih =>
    rw [List.flatMap_cons, List.flatMap_cons, Line.contentsOf_append]
    exact line.passes_lines.append ih

theorem toList_ofSource (lines : List SharedLine) :
    (Catalog.ofSource .standard (source lines)).toList = lines.flatMap nodes := by
  apply Passes.toList_ofSource
  rw [source, Line.contents_join]
  · exact passes_flatMap_lines lines
  · intro t ht
    obtain ⟨line, -, hLine⟩ := List.mem_flatMap.mp ht
    exact line.newline_notMem_lines t hLine

def Keeps (line : SharedLine) : Prop :=
  line.first.isMarked → ∀ decl ∈ line.others, decl.isMarked

theorem length_nodes_eq_iff :
    line.nodes.length = (line.decls.filter (!·.isMarked)).length ↔ line.Keeps := by
  rw [nodes, Keeps]
  cases hMarked : line.first.isMarked with
  | false => simp
  | true =>
    rw [if_pos rfl, List.length_nil, eq_comm, List.length_eq_zero_iff, List.filter_eq_nil_iff]
    simp [decls, hMarked]

theorem length_flatMap_nodes_le (lines : List SharedLine) :
    (lines.flatMap nodes).length ≤ ((lines.flatMap decls).filter (!·.isMarked)).length := by
  induction lines with
  | nil => simp
  | cons line lines ih =>
    have hLine : line.nodes.length ≤ (line.decls.filter (!·.isMarked)).length := by
      rw [nodes]
      split <;> simp
    simp only [List.flatMap_cons, List.length_append, List.filter_append]
    omega

/-- If as many nodes are read as there are unmarked declarations, no line loses one. -/
theorem keeps_of_length_eq {lines : List SharedLine}
    (h : (lines.flatMap nodes).length = ((lines.flatMap decls).filter (!·.isMarked)).length) :
    ∀ line ∈ lines, line.Keeps := by
  intro line hLine
  obtain ⟨before, after, rfl⟩ := List.append_of_mem hLine
  have hBefore := length_flatMap_nodes_le before
  have hAfter := length_flatMap_nodes_le after
  have hOne := length_flatMap_nodes_le [line]
  rw [← length_nodes_eq_iff]
  simp only [List.flatMap_append, List.flatMap_cons, List.flatMap_nil, List.append_nil,
    List.length_append, List.filter_append] at h hOne
  omega

theorem flatMap_nodes_eq {lines : List SharedLine} (h : ∀ line ∈ lines, line.Keeps) :
    lines.flatMap nodes =
      ((lines.flatMap decls).filter (!·.isMarked)).map (·.declaration.node) := by
  induction lines with
  | nil => rfl
  | cons line lines ih =>
    obtain ⟨hLine, hLines⟩ := List.forall_mem_cons.mp h
    have hNodes : line.nodes = (line.decls.filter (!·.isMarked)).map (·.declaration.node) := by
      rw [← length_nodes_eq_iff, nodes] at hLine
      rw [nodes]
      split
      · next hMarked =>
        rw [if_pos hMarked, List.length_nil, eq_comm, List.length_eq_zero_iff] at hLine
        rw [hLine]
        rfl
      · rfl
    rw [List.flatMap_cons, List.flatMap_cons, List.filter_append, List.map_append, hNodes,
      ih hLines]

end SharedLine

/-- The fragments of an artifact for tagged nodes include one for each node; touching leaves out
those without fields. -/
theorem Artifact.exists_fragment_of_mem (conv : Conventions) {nodes : List NodeDecl}
    (hTags : ∀ node ∈ nodes, node.tags ≠ []) (artifact : Artifact) :
    ∃ fragments, artifact.fragments conv nodes = .ok fragments ∧
      ∀ node ∈ nodes, (artifact = .toucher → node.isBare = false) →
        ∃ fragment ∈ fragments, fragment.node = node.name := by
  obtain ⟨fragments, hFragments, hSections⟩ := exists_fragments_eq_sections conv hTags artifact
  refine ⟨fragments, hFragments, fun node hNode hBare => ?_⟩
  have hMem {s : Section} {fragment : Fragment}
      (h : fragment ∈ sectionFragments conv nodes artifact s) : fragment ∈ fragments := by
    rw [← hSections] at h
    exact (List.mem_filter.mp h).1
  obtain ⟨tag, tags, hTag⟩ := List.exists_cons_of_ne_nil (hTags node hNode)
  have hTagged : (node, tag) ∈ taggedNodes nodes :=
    List.mem_flatMap.mpr ⟨node, hNode, by simp [hTag]⟩
  have hLead : (node, tag) ∈ leadTaggedNodes nodes :=
    List.mem_filterMap.mpr ⟨node, hNode, by simp [NodeDecl.leadTag?, hTag]⟩
  cases artifact with
  | builders =>
    exact ⟨_, @hMem .builderApi _ (List.mem_map_of_mem hNode), rfl⟩
  | equality =>
    exact ⟨_, @hMem .cases _ (List.mem_map_of_mem hLead), rfl⟩
  | printer =>
    exact ⟨_, @hMem .cases _ (List.mem_map_of_mem hTagged), rfl⟩
  | toucher =>
    have hShown : (node, tag) ∈ (taggedNodes nodes).filter fun pair => !pair.1.isBare :=
      List.mem_filter.mpr ⟨hTagged, by simp [hBare rfl]⟩
    exact ⟨_, @hMem .cases _ (List.mem_map_of_mem hShown), rfl⟩
  | tokenBoundary =>
    exact ⟨_, @hMem .firstToken _ (List.mem_map_of_mem hTagged), rfl⟩

/-- The names that are read are those of the unmarked declarations exactly if no marked declaration
has an unmarked one behind it on a line that it starts; each document then has code for all of them,
but for those without fields in touching. -/
theorem names_ofSource_sharedLines (lines : List SharedLine) :
    ((Catalog.ofSource .standard (SharedLine.source lines)).toList.map NodeDecl.name =
        ((lines.flatMap SharedLine.decls).filter (!·.isMarked)).map (·.name.text) ↔
      ∀ line ∈ lines, line.Keeps) ∧
    ((∀ line ∈ lines, line.Keeps) →
      ∀ decl ∈ lines.flatMap SharedLine.decls, decl.isMarked = false →
        ∀ artifact : Artifact, (artifact = .toucher → decl.fields ≠ []) →
          ∃ fragments,
            artifact.fragments .standard
              (Catalog.ofSource .standard (SharedLine.source lines)).toList = .ok fragments ∧
            Document.ofCatalog .standard (Catalog.ofSource .standard (SharedLine.source lines))
              artifact = .ok ⟨artifact, artifact.fill fragments⟩ ∧
            ∃ fragment ∈ fragments, fragment.node = decl.name.text) := by
  have hNodes := SharedLine.toList_ofSource lines
  refine ⟨⟨?_, ?_⟩, ?_⟩
  · intro hNames
    have hLength := congrArg List.length hNames
    rw [List.length_map, List.length_map, hNodes] at hLength
    exact SharedLine.keeps_of_length_eq hLength
  · intro hKeeps
    rw [hNodes, SharedLine.flatMap_nodes_eq hKeeps, List.map_map]
    rfl
  · intro hKeeps decl hDecl hMarked artifact hFields
    have hNode : decl.declaration.node ∈
        (Catalog.ofSource .standard (SharedLine.source lines)).toList := by
      rw [hNodes, SharedLine.flatMap_nodes_eq hKeeps]
      exact List.mem_map_of_mem (List.mem_filter.mpr ⟨hDecl, by simp [hMarked]⟩)
    obtain ⟨fragments, hFragments, hAll⟩ := Artifact.exists_fragment_of_mem .standard
      (fun node hNode => (Catalog.wellFormed_of_mem_ofSource hNode).1.tags) artifact
    refine ⟨fragments, hFragments, Document.ofCatalog_eq_ok hFragments, hAll _ hNode ?_⟩
    intro hToucher
    simpa [NodeDecl.isBare, Declaration.node, LineDecl.declaration] using hFields hToucher

/-- Two nodes on one line, the first of them abstract. -/
def markedFirst : SharedLine where
  first := ⟨0, .inFront, ⟨"ExprSyntax", isName_exprSyntax⟩,
    ⟨"SyntaxBase", isName_syntaxBase⟩, [(1, ⟨"start", isName_start⟩)], 1⟩
  others := [⟨1, .concrete, ⟨"NameSyntax", isName_nameSyntax⟩,
    ⟨"ExprSyntax", isName_exprSyntax⟩, [(1, ⟨"word", isName_word⟩)], 1⟩]
  inFront := by simp

/-- The second node is lost with the first. -/
theorem names_ofSource_markedFirst :
    SharedLine.source [markedFirst] =
      Text.concat ["abstract struct ExprSyntax : SyntaxBase \x7b SyntaxToken start; \x7d;",
        " struct NameSyntax : ExprSyntax \x7b SyntaxToken word; \x7d;"] ∧
    (Catalog.ofSource .standard (SharedLine.source [markedFirst])).toList = [] ∧
    (Catalog.ofSource .standard (SharedLine.source [markedFirst])).toList.map NodeDecl.name ≠
      (([markedFirst].flatMap SharedLine.decls).filter (!·.isMarked)).map (·.name.text) := by
  have hNodes : (Catalog.ofSource .standard (SharedLine.source [markedFirst])).toList = [] := by
    rw [SharedLine.toList_ofSource]
    rfl
  refine ⟨by decide +kernel, hNodes, ?_⟩
  rw [hNodes]
  exact (List.cons_ne_nil _ _).symm

end NodeScaffold
