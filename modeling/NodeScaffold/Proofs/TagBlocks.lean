import Mathlib.Data.List.Forall2
import NodeScaffold.Proofs.Passages

/-! # Layouts of tag blocks

A tag block ends with a line of its own. One that is written on a single line is opened by that line
and not closed by it, so that the line meant to close the declaration closes the block, and the
declaration goes on into the next one. The reader finds as many nodes as there are declarations with
no such block, and the declared ones exactly if there is none. -/
namespace NodeScaffold
open Declaration
set_option autoImplicit false

inductive BlockLayout where
  /-- an entry on each line, the last with its separator or without -/
  | spread (lastSeparator : Bool)
  /-- all on one line -/
  | packed
deriving DecidableEq

structure TagBlock where
  layout : BlockLayout
  first : Name
  others : List Name

namespace TagBlock

def tags (block : TagBlock) : List Name := block.first :: block.others

def entry (tag : Name) : Text := Text.concat ["SyntaxKind::", tag.text]

def entryLines (lastSeparator : Bool) (tag : Name) : List Name → List Text
  | [] => [if lastSeparator then tagLine tag else entry tag]
  | next :: tags => tagLine tag :: entryLines lastSeparator next tags

def packedLine (tags : List Name) : Text :=
  Text.concat ["VALID_SYNTAX_KINDS = \x7b ", Text.join ", " (tags.map entry), " \x7d;"]

def lines (block : TagBlock) : List Text :=
  match block.layout with
  | .spread lastSeparator =>
    [tagBlockOpening] ++ entryLines lastSeparator block.first block.others ++ [closing]
  | .packed => [packedLine block.tags]

end TagBlock

/-- A concrete declaration all of whose fields are tokens, given by their names, with the place of
its tag block among them. -/
structure TokenDecl where
  name : Name
  base : Name
  before : List Name
  block? : Option TagBlock
  after : List Name

namespace TokenDecl

def declaration (decl : TokenDecl) : Declaration where
  marking := .concrete
  name := decl.name
  base := decl.base
  members := (decl.before ++ decl.after).map tokenMember
  tags? := decl.block?.map TagBlock.tags

def bodyLines (decl : TokenDecl) : List Text :=
  decl.before.map (Member.line ∘ tokenMember) ++ decl.block?.elim [] TagBlock.lines ++
    decl.after.map (Member.line ∘ tokenMember) ++ [closing]

def lines (decl : TokenDecl) : List Text := [decl.declaration.header] ++ decl.bodyLines

def isPacked (decl : TokenDecl) : Bool := decl.block?.any (·.layout = .packed)

/-- The node is the one that was declared: its words, no field of another declaration, and its own
tags. -/
structure Yields (decl : TokenDecl) (node : NodeDecl) : Prop where
  name : node.name = decl.name.text
  base : node.base? = some decl.base.text
  fields : ∀ field ∈ node.fields, ∃ name ∈ decl.before ++ decl.after,
    field = ⟨name.text, Text.ofString "SyntaxToken"⟩
  tags : node.tags = decl.block?.elim [Conventions.standard.impliedTag decl.name.text]
    fun block => block.tags.map Name.text

theorem yields_node (decl : TokenDecl) : decl.Yields decl.declaration.node := by
  refine ⟨rfl, rfl, fun field hField => ?_, ?_⟩
  · obtain ⟨member, hMember, rfl⟩ := List.mem_map.mp hField
    obtain ⟨name, hName, rfl⟩ := List.mem_map.mp hMember
    refine ⟨name, hName, ?_⟩
    with_unfolding_all rfl
  · rw [Declaration.node, Declaration.tags, declaration]
    cases decl.block? with
    | none => rfl
    | some block => rfl

end TokenDecl

namespace TagBlock

theorem mem_entry {tag : Name} {c : Char} (hc : c ∈ entry tag) : isWordPart c ∨ c = ':' := by
  have hQualifier : ∀ d ∈ Text.ofString "SyntaxKind::", isWordPart d ∨ d = ':' := by
    simp [Text.ofString, isWordPart]
  simp only [entry, Text.concat, List.flatten_cons, List.flatten_nil, List.append_nil,
    List.mem_append] at hc
  rcases hc with hc | hc
  · exact hQualifier c hc
  · exact .inl (isWordPart_of_mem tag.isWord hc)

theorem clean_entry (tag : Name) : Line.clean (entry tag) = entry tag := by
  have hSlash : '/' ∉ entry tag := fun hMem => absurd (mem_entry hMem) (by decide)
  have hBlank : ∀ c ∈ entry tag, Text.isBlank c = false := by
    intro c hc
    rcases mem_entry hc with hPart | rfl
    · exact isBlank_of_isWordPart hPart
    · decide
  exact Line.clean_eq_self hSlash (fun c hc => hBlank c (List.mem_of_mem_head? hc))
    fun c hc => hBlank c (List.mem_of_mem_getLast? hc)

theorem mem_packedLine {tags : List Name} {c : Char} (hc : c ∈ packedLine tags) :
    isWordPart c ∨ c ∈ [' ', '=', '\x7b', '\x7d', ':', ',', ';'] := by
  have hOpening : ∀ d ∈ Text.ofString "VALID_SYNTAX_KINDS = \x7b ",
      isWordPart d ∨ d ∈ [' ', '=', '\x7b', '\x7d', ':', ',', ';'] := by
    simp [Text.ofString, isWordPart]
  have hEntries : ∀ d ∈ Text.join (Text.ofString ", ") (tags.map entry),
      isWordPart d ∨ d ∈ [' ', '=', '\x7b', '\x7d', ':', ',', ';'] := by
    refine Text.forall_mem_join (by simp [Text.ofString, isWordPart]) fun item hItem d hd => ?_
    obtain ⟨tag, -, rfl⟩ := List.mem_map.mp hItem
    rcases mem_entry hd with hPart | rfl
    · exact .inl hPart
    · simp
  have hClosing : ∀ d ∈ Text.ofString " \x7d;",
      isWordPart d ∨ d ∈ [' ', '=', '\x7b', '\x7d', ':', ',', ';'] := by
    simp [Text.ofString, isWordPart]
  simp only [packedLine, Text.concat, List.flatten_cons, List.flatten_nil, List.append_nil,
    List.mem_append] at hc
  rcases hc with hc | hc | hc
  · exact hOpening c hc
  · exact hEntries c hc
  · exact hClosing c hc

theorem clean_packedLine (tags : List Name) :
    Line.clean (packedLine tags) = packedLine tags := by
  have hFirst : (Text.ofString "VALID_SYNTAX_KINDS = \x7b ").head? = some 'V' := by
    with_unfolding_all decide
  have hLast : (Text.ofString " \x7d;").getLast? = some ';' := by with_unfolding_all decide
  refine Line.clean_eq_self (fun hMem => absurd (mem_packedLine hMem) (by decide)) ?_ ?_
  · simp [packedLine, Text.concat, hFirst, show Text.isBlank 'V' = false by decide]
  · simp [packedLine, Text.concat, hLast, show Text.isBlank ';' = false by decide]

theorem startsWith_packedLine (tags : List Name) :
    (TokenLine.ofText (packedLine tags)).startsWith Conventions.standard.tagBlockWord = true := by
  have hLine : packedLine tags = Text.ofString "VALID_SYNTAX_KINDS" ++
      (Text.ofString " = \x7b " ++ (Text.join (Text.ofString ", ") (tags.map entry) ++
        Text.ofString " \x7d;")) := by
    simp [packedLine, Text.concat, Text.ofString]
  rw [hLine, TokenLine.startsWith_ofText,
    Text.lexemes_word_append (by with_unfolding_all decide) (by simp [Text.ofString, isWordPart]),
    wordKind_of_isName (by with_unfolding_all decide)]
  simp [Conventions.standard]

/-- The entries of a spread block add their tags. -/
theorem passes_entryLines (lastSeparator : Bool) (draft : Draft) (tag : Name) (tags : List Name) :
    Passes .standard (.tagBlock draft) (Line.contentsOf (entryLines lastSeparator tag tags))
      (.tagBlock { draft with tags := draft.tags ++ (tag :: tags).map Name.text }) [] := by
  induction tags generalizing draft tag with
  | nil =>
    have hLine : Reads .standard (.tagBlock draft)
        [if lastSeparator then tagLine tag else entry tag] (.tagBlock (draft.addTag tag.text))
        [] := by
      cases lastSeparator with
      | true => exact reads_tagLine draft tag
      | false =>
        have hEntry : entry tag = Text.concat ["SyntaxKind::", tag.text, []] := by
          simp [entry, Text.concat]
        exact reads_entry draft tag (clean_entry tag) hEntry (by simp)
    exact hLine.passes
  | cons next tags ih =>
    have hBoth := (reads_tagLine draft tag).passes.append (ih (draft.addTag tag.text) next)
    rw [entryLines, ← List.singleton_append, Line.contentsOf_append]
    simpa [Draft.addTag] using hBoth

theorem passes_spread {block : TagBlock} (h : block.layout ≠ .packed) (draft : Draft) :
    Passes .standard (.body draft) (Line.contentsOf block.lines)
      (.body { draft with
        tags := draft.tags ++ block.tags.map Name.text
        hasTagBlock := true }) [] := by
  cases hLayout : block.layout with
  | packed => exact absurd hLayout h
  | spread lastSeparator =>
    have hBlock := ((reads_tagBlockOpening draft).passes.append
      (passes_entryLines lastSeparator _ block.first block.others)).append
        (reads_tagBlockClosing _).passes
    rw [lines, hLayout]
    simp only [Line.contentsOf_append]
    exact hBlock

/-- A block on a single line is opened and stays open. -/
theorem passes_packed {block : TagBlock} (h : block.layout = .packed) (draft : Draft) :
    Passes .standard (.body draft) (Line.contentsOf block.lines)
      (.tagBlock { draft with hasTagBlock := true }) [] := by
  have hReads : Reads .standard (.body draft) [packedLine block.tags]
      (.tagBlock { draft with hasTagBlock := true }) [] := by
    refine Reads.line (fun number => ⟨[], rfl, ?_⟩) ?_
    · rw [clean_packedLine]
      simp [Step.of, Step.body, startsWith_packedLine]
    · rw [clean_packedLine]
      simp [packedLine, Text.concat, Text.ofString]
  rw [lines, h]
  exact hReads.passes

theorem newline_notMem_entryLines (lastSeparator : Bool) (tag : Name) (tags : List Name) :
    ∀ t ∈ entryLines lastSeparator tag tags, '\n' ∉ t := by
  have hLine (tag : Name) : '\n' ∉ tagLine tag := notMem_tagLine tag (by decide) (by decide)
  induction tags generalizing tag with
  | nil =>
    intro t ht
    cases List.mem_singleton.mp ht
    split
    · exact hLine tag
    · exact fun hMem => absurd (mem_entry hMem) (by decide)
  | cons next tags ih =>
    rw [entryLines]
    exact List.forall_mem_cons.mpr ⟨hLine tag, ih next⟩

theorem newline_notMem_lines (block : TagBlock) : ∀ t ∈ block.lines, '\n' ∉ t := by
  rw [lines]
  split
  · simp only [List.forall_mem_append, List.forall_mem_singleton]
    refine ⟨⟨by simp [tagBlockOpening, Text.ofString], newline_notMem_entryLines _ _ _⟩, ?_⟩
    exact notMem_closing
  · rw [List.forall_mem_singleton]
    exact fun hMem => absurd (mem_packedLine hMem) (by decide)

end TagBlock

/-- In a tag block, the line of a token means nothing. -/
theorem reads_token_tagBlock (draft : Draft) (name : Name) :
    Reads .standard (.tagBlock draft) [(tokenMember name).line] (.tagBlock draft) [] := by
  have hLine : (tokenMember name).line =
      Text.ofString "SyntaxToken" ++ ' ' :: (name.text ++ [';']) := by
    rw [Member.line_eq]
    simp [tokenMember, tokenType, sampleToken, WrittenType.text, TypePart.text]
  have hClean : Line.clean (tokenMember name).line = (tokenMember name).line := by
    rw [Member.clean_line, hLine]
    simp [Text.ofString, Text.trimStart, show Text.isBlank 'S' = false by decide]
  have hEntry : Conventions.standard.unqualified? (tokenMember name).line = none := by
    rw [hLine]
    simp [Conventions.unqualified?, Text.dropHead?, Conventions.standard, Text.ofString]
  have hClose : Conventions.standard.closeMark.isPrefixOf (tokenMember name).line = false := by
    rw [hLine]
    simp [Conventions.standard, Text.ofString, List.isPrefixOf]
  refine Reads.skip fun number => ⟨[], rfl, ?_⟩
  rw [hClean]
  simp [Step.of, Step.tagBlock, hEntry, hClose]

theorem passes_tokens_tagBlock (draft : Draft) (names : List Name) :
    Passes .standard (.tagBlock draft)
      (Line.contentsOf (names.map (Member.line ∘ tokenMember))) (.tagBlock draft) [] := by
  induction names with
  | nil => exact Passes.nil
  | cons name names ih =>
    rw [List.map_cons, ← List.singleton_append, Line.contentsOf_append]
    exact (reads_token_tagBlock draft name).passes.append ih

/-- Where the reader stands in front of a declaration: outside of every declaration, or still in the
body of an earlier one. -/
def Mode.ofPending : Option Draft → Mode
  | none => .between
  | some draft => .body draft

namespace TokenDecl

theorem passes_opening (decl : TokenDecl) (pending : Option Draft) :
    Passes .standard (.ofPending pending) (Line.contentsOf [decl.declaration.header])
      (.body (pending.getD { name := decl.name.text, base := decl.base.text, line := 0 })) [] := by
  cases pending with
  | none => exact passes_header decl.declaration
  | some draft => exact (reads_bodyNoise (decl.declaration.isBodyNoise_header draft.name)).passes

theorem passes_block {decl : TokenDecl} (h : decl.isPacked = false) (draft : Draft) :
    ∃ hasTagBlock, Passes .standard (.body draft)
      (Line.contentsOf (decl.block?.elim [] TagBlock.lines))
      (.body { draft with
        tags := draft.tags ++ (decl.declaration.tags?.getD []).map Name.text
        hasTagBlock }) [] := by
  rw [isPacked] at h
  rw [declaration]
  cases hBlock : decl.block? with
  | none =>
    refine ⟨draft.hasTagBlock, ?_⟩
    simp only [Option.map_none, Option.getD_none, List.map_nil, List.append_nil]
    exact Passes.nil
  | some block =>
    have hLayout : block.layout ≠ .packed := by simpa [hBlock] using h
    exact ⟨true, block.passes_spread hLayout draft⟩

theorem passes_body_of_spread {decl : TokenDecl} (h : decl.isPacked = false) (draft : Draft) :
    ∃ hasTagBlock, Passes .standard (.body draft) (Line.contentsOf decl.bodyLines) .between
      [Draft.closedNode .standard { draft with
        fields := draft.fields ++ decl.declaration.members.map Member.field
        tags := draft.tags ++ (decl.declaration.tags?.getD []).map Name.text
        hasTagBlock }] := by
  have hBefore := passes_members draft (decl.before.map tokenMember)
  obtain ⟨hasTagBlock, hBlock⟩ := passes_block h _
  have hBody := ((hBefore.append hBlock).append
    (passes_members _ (decl.after.map tokenMember))).append (reads_closing _).passes
  refine ⟨hasTagBlock, ?_⟩
  simpa [bodyLines, declaration, Line.contentsOf_append] using hBody

theorem passes_body_of_packed {decl : TokenDecl} (h : decl.isPacked = true) (draft : Draft) :
    ∃ draft',
      Passes .standard (.body draft) (Line.contentsOf decl.bodyLines) (.body draft') [] := by
  obtain ⟨block, hBlock, hLayout⟩ : ∃ block, decl.block? = some block ∧ block.layout = .packed := by
    simpa [isPacked, Option.any_eq_true] using h
  have hBefore := passes_members draft (decl.before.map tokenMember)
  have hBody := ((hBefore.append (block.passes_packed hLayout _)).append
    (passes_tokens_tagBlock _ decl.after)).append (reads_tagBlockClosing _).passes
  exact ⟨_, by simpa [bodyLines, hBlock, Line.contentsOf_append] using hBody⟩

/-- A declaration without a packed block ends with the line that closes it, whichever draft was open
before; if none was, its node is the declared one. -/
theorem passes_of_spread {decl : TokenDecl} (h : decl.isPacked = false) (pending : Option Draft) :
    ∃ node, Passes .standard (.ofPending pending) (Line.contentsOf decl.lines) .between [node] ∧
      (pending = none → node = decl.declaration.node) := by
  obtain ⟨hasTagBlock, hBody⟩ := passes_body_of_spread h
    (pending.getD { name := decl.name.text, base := decl.base.text, line := 0 })
  rw [lines, Line.contentsOf_append]
  refine ⟨_, (decl.passes_opening pending).append hBody, ?_⟩
  rintro rfl
  exact closedNode_eq_node decl.declaration 0 hasTagBlock

/-- A declaration with a packed block does not end with the line that should close it. -/
theorem passes_of_packed {decl : TokenDecl} (h : decl.isPacked = true) (pending : Option Draft) :
    ∃ draft,
      Passes .standard (.ofPending pending) (Line.contentsOf decl.lines) (.body draft) [] := by
  obtain ⟨draft, hBody⟩ := passes_body_of_packed h
    (pending.getD { name := decl.name.text, base := decl.base.text, line := 0 })
  rw [lines, Line.contentsOf_append]
  exact ⟨draft, (decl.passes_opening pending).append hBody⟩

/-- Reading declarations one after the other gives a node for each one without a packed block. -/
theorem passes_declarations (decls : List TokenDecl) (pending : Option Draft) :
    ∃ pending' nodes, Passes .standard (.ofPending pending)
        (Line.contentsOf (decls.flatMap lines)) (.ofPending pending') nodes ∧
      nodes.length = decls.countP (!·.isPacked) := by
  induction decls generalizing pending with
  | nil => exact ⟨pending, [], Passes.nil, rfl⟩
  | cons decl decls ih =>
    rw [List.flatMap_cons, Line.contentsOf_append, List.countP_cons]
    cases hPacked : decl.isPacked with
    | false =>
      obtain ⟨node, hNode, -⟩ := passes_of_spread hPacked pending
      obtain ⟨pending', nodes, hRest, hLength⟩ := ih none
      exact ⟨pending', _, hNode.append hRest, by simp [hLength]⟩
    | true =>
      obtain ⟨draft, hOpen⟩ := passes_of_packed hPacked pending
      obtain ⟨pending', nodes, hRest, hLength⟩ := ih (some draft)
      exact ⟨pending', _, hOpen.append hRest, by simp [hLength]⟩

theorem passes_spreadDeclarations {decls : List TokenDecl}
    (h : ∀ decl ∈ decls, decl.isPacked = false) :
    Passes .standard .between (Line.contentsOf (decls.flatMap lines)) .between
      (decls.map (·.declaration.node)) := by
  induction decls with
  | nil => exact Passes.nil
  | cons decl decls ih =>
    obtain ⟨hDecl, hDecls⟩ := List.forall_mem_cons.mp h
    obtain ⟨node, hNode, hEq⟩ := passes_of_spread hDecl none
    rw [List.flatMap_cons, Line.contentsOf_append, List.map_cons, ← hEq rfl]
    exact hNode.append (ih hDecls)

theorem newline_notMem_lines (decl : TokenDecl) : ∀ t ∈ decl.lines, '\n' ∉ t := by
  have hMembers (names : List Name) :
      ∀ t ∈ names.map (Member.line ∘ tokenMember), '\n' ∉ t := by
    intro t ht
    obtain ⟨name, -, rfl⟩ := List.mem_map.mp ht
    exact fun hMem => absurd (Member.mem_line hMem) (by decide)
  have hBlock : ∀ t ∈ decl.block?.elim [] TagBlock.lines, '\n' ∉ t := by
    cases decl.block? with
    | none => simp
    | some block => exact block.newline_notMem_lines
  simp only [lines, bodyLines, List.forall_mem_append, List.forall_mem_singleton]
  exact ⟨decl.declaration.notMem_header (by decide) (by decide),
    ⟨⟨hMembers decl.before, hBlock⟩, hMembers decl.after⟩, notMem_closing⟩

def source (decls : List TokenDecl) : Text := Text.join ['\n'] (decls.flatMap lines)

theorem contents_source (decls : List TokenDecl) :
    Line.contents (source decls) = Line.contentsOf (decls.flatMap lines) := by
  refine Line.contents_join fun t ht => ?_
  obtain ⟨decl, -, hLine⟩ := List.mem_flatMap.mp ht
  exact decl.newline_notMem_lines t hLine

end TokenDecl

/-- There are as many nodes as declarations without a packed block, and they are the declared ones,
one for each and in their order, exactly if no block is packed. -/
theorem toList_ofSource_tokenDecls (decls : List TokenDecl) :
    (Catalog.ofSource .standard (TokenDecl.source decls)).toList.length =
      decls.countP (!·.isPacked) ∧
    (List.Forall₂ TokenDecl.Yields decls
        (Catalog.ofSource .standard (TokenDecl.source decls)).toList ↔
      ∀ decl ∈ decls, decl.isPacked = false) := by
  have hLength : (Catalog.ofSource .standard (TokenDecl.source decls)).toList.length =
      decls.countP (!·.isPacked) := by
    obtain ⟨pending, nodes, hPasses, hLength⟩ := TokenDecl.passes_declarations decls none
    rw [← TokenDecl.contents_source] at hPasses
    rw [hPasses.toList_ofSource, hLength]
  refine ⟨hLength, fun hYields => ?_, fun hSpread => ?_⟩
  · rw [← hYields.length_eq] at hLength
    simpa using List.countP_eq_length.mp hLength.symm
  · have hPasses := TokenDecl.passes_spreadDeclarations hSpread
    rw [← TokenDecl.contents_source] at hPasses
    rw [hPasses.toList_ofSource, List.forall₂_map_right_iff, List.forall₂_same]
    exact fun decl _ => decl.yields_node

/-- A node with two tags on one line, which is followed by one without a tag block. -/
def packedDecls : List TokenDecl :=
  [{ name := ⟨"SignSyntax", by with_unfolding_all decide⟩
     base := ⟨"ExprSyntax", isName_exprSyntax⟩
     before := []
     block? := some ⟨.packed, ⟨"Plus", by with_unfolding_all decide⟩,
      [⟨"Minus", by with_unfolding_all decide⟩]⟩
     after := [⟨"sign", by with_unfolding_all decide⟩] },
   { name := ⟨"NameSyntax", isName_nameSyntax⟩
     base := ⟨"ExprSyntax", isName_exprSyntax⟩
     before := [⟨"word", isName_word⟩]
     block? := none
     after := [] }]

/-- The first node takes the field of the second and loses its own field and tags. -/
theorem not_yields_packedDecls :
    TokenDecl.source packedDecls = Text.join ['\n']
      ["struct SignSyntax : ExprSyntax \x7b",
        "VALID_SYNTAX_KINDS = \x7b SyntaxKind::Plus, SyntaxKind::Minus \x7d;", "SyntaxToken sign;",
        "\x7d;", "struct NameSyntax : ExprSyntax \x7b", "SyntaxToken word;", "\x7d;"] ∧
    (Catalog.ofSource .standard (TokenDecl.source packedDecls)).toList =
      [⟨Text.ofString "SignSyntax", some (Text.ofString "ExprSyntax"),
        [⟨Text.ofString "word", Text.ofString "SyntaxToken"⟩], [Text.ofString "Sign"]⟩] ∧
    ¬List.Forall₂ TokenDecl.Yields packedDecls
      (Catalog.ofSource .standard (TokenDecl.source packedDecls)).toList := by
  have hNodes : (Catalog.ofSource .standard (TokenDecl.source packedDecls)).toList =
      [⟨Text.ofString "SignSyntax", some (Text.ofString "ExprSyntax"),
        [⟨Text.ofString "word", Text.ofString "SyntaxToken"⟩], [Text.ofString "Sign"]⟩] := by
    decide +kernel
  refine ⟨congrArg (Text.join ['\n']) (by with_unfolding_all rfl), hNodes, fun hYields => ?_⟩
  have hLength := hYields.length_eq
  rw [hNodes] at hLength
  simp [packedDecls] at hLength

end NodeScaffold
