import NodeScaffold.Proofs.Runs
import NodeScaffold.Proofs.WrittenLines

/-! # Reading back what was written

The reader finds in a written header exactly the nodes of its concrete declarations. Each written
line is read on its own, and the lines of a declaration lead the reader from outside of every
declaration back to there. -/
namespace NodeScaffold
open Declaration
set_option autoImplicit false

/-- Outside of every declaration, a line without the keyword changes nothing unless it is a lone
abstract mark. -/
theorem reads_between {t : Text}
    (hKeyword : (TokenLine.ofText (Line.clean t)).contains .structWord = false)
    (hAlone : (TokenLine.ofText (Line.clean t)).startsWith "abstract" →
      (TokenLine.ofText (Line.clean t)).tokens.length ≠ 1) :
    Reads .standard .between [t] .between [] := by
  refine Reads.skip fun number => ⟨[], rfl, ?_⟩
  have hFind := Header.find?_eq_none hKeyword
  by_cases hMark : (TokenLine.ofText (Line.clean t)).startsWith "abstract"
  · simp [Step.of, Step.between, Conventions.standard, hMark, hAlone hMark, hFind]
  · simp [Step.of, Step.between, Conventions.standard, hMark, hFind]

theorem reads_noise {t : Text} (h : IsNoise t) : Reads .standard .between [t] .between [] :=
  reads_between h.2.1 (by simp [h.2.2])

theorem reads_bodyNoise {draft : Draft} {t : Text} (h : IsBodyNoise draft.name t) :
    Reads .standard (.body draft) [t] (.body draft) [] := by
  obtain ⟨-, hField, hBlock, hConstructor, hClose⟩ := h
  refine Reads.skip fun number => ⟨[], rfl, ?_⟩
  rw [Step.of_body number hBlock hConstructor hClose, hField]
  rfl

/-- In a body, a line without a parenthesis that starts neither like a tag block nor with a closing
brace adds its field, if any. -/
theorem Step.of_body_of_head? (draft : Draft) (number : Nat) {t first : Text} {kind : TokenKind}
    (hFirst : t.lexemes.head? = some (kind, first)) (hKind : kind ≠ .braceClose)
    (hWord : first ≠ Text.ofString "VALID_SYNTAX_KINDS")
    (hParen : (TokenLine.ofText t).contains .parenOpen = false) :
    Step.of .standard (.body draft) ⟨number, t⟩ =
      { mode := .body ((FieldDecl.ofLine? (TokenLine.ofText t)).elim draft draft.addField) } := by
  have hBlock : (TokenLine.ofText t).startsWith Conventions.standard.tagBlockWord = false := by
    rw [TokenLine.startsWith_ofText, hFirst]
    simp [Conventions.standard, hWord]
  refine Step.of_body number hBlock (by simp [hParen]) ?_
  rintro ⟨rest, hRest⟩
  have hBrace : t = '\x7d' :: ';' :: rest := by
    rw [← hRest]
    simp [Conventions.standard, Text.ofString]
  rw [hBrace, Text.lexemes_mark (by decide)] at hFirst
  exact hKind (congrArg Prod.fst (Option.some.inj hFirst)).symm

theorem Member.head?_lexemes_clean_line (member : Member) : ∃ kind first,
    (Text.lexemes (Line.clean member.line)).head? = some (kind, first) ∧ kind ≠ .braceClose ∧
      first ≠ Text.ofString "VALID_SYNTAX_KINDS" := by
  obtain ⟨first, rest, hStart, hWord⟩ := member.type.start
  obtain ⟨kind, hKind, hHead⟩ := TypePart.head?_filterMap_lexeme? hStart
  refine ⟨kind, first.text, ?_, hKind, hWord⟩
  rw [member.lexemes_clean_line, List.head?_append, hHead]
  rfl

theorem reads_member (draft : Draft) (member : Member) :
    Reads .standard (.body draft) [member.line] (.body (draft.addField member.field)) [] := by
  obtain ⟨kind, first, hFirst, hKind, hWord⟩ := member.head?_lexemes_clean_line
  have hParen := member.contains_clean_line (.inl rfl)
  refine Reads.line (fun number => ⟨[], rfl, ?_⟩) ?_
  · rw [Step.of_body_of_head? draft number hFirst hKind hWord hParen, member.ofLine?_clean_line]
    rfl
  · intro hNil
    simp [hNil, Text.lexemes_nil] at hFirst

theorem reads_members (draft : Draft) {members : List Member} {ts : List Text} {name : Text}
    (hName : draft.name = name)
    (h : WithNoise (IsBodyNoise name) (members.map Member.line) ts) :
    Reads .standard (.body draft) ts
      (.body { draft with fields := draft.fields ++ members.map Member.field }) [] := by
  generalize hLines : members.map Member.line = lines at h
  induction h generalizing draft members with
  | nil =>
    cases List.map_eq_nil_iff.mp hLines
    simpa using Reads.nil
  | keep t _ ih =>
    obtain ⟨member, rest, rfl, rfl, hRest⟩ := List.map_eq_cons_iff.mp hLines
    have hTail := (reads_member draft member).append
      (ih (draft.addField member.field) hName hRest)
    simpa [Draft.addField, List.append_assoc] using hTail
  | insert t hNoise _ ih =>
    exact (reads_bodyNoise (hName ▸ hNoise)).append (ih draft hName hLines)

/-- An entry of a tag block adds its tag, whether a separator follows the tag or not. -/
theorem reads_entry (draft : Draft) (tag : Name) {t rest : Text} (hClean : Line.clean t = t)
    (ht : t = Text.concat ["SyntaxKind::", tag.text, rest]) (hRest : ∀ c ∈ rest.head?, c = ',') :
    Reads .standard (.tagBlock draft) [t] (.tagBlock (draft.addTag tag.text)) [] := by
  have hLine : t = Conventions.standard.tagEnum ++ (Text.ofString "::" ++ (tag.text ++ rest)) := by
    simp [ht, Text.concat, Conventions.standard, Text.ofString]
  have hEntry : Conventions.standard.unqualified? t = some (tag.text ++ rest) := by
    rw [hLine, Conventions.unqualified?, Text.dropHead?_append]
    exact Text.dropHead?_append ..
  have hTag : Step.entryTag .standard (tag.text ++ rest) = tag.text := by
    have hChars : ∀ c ∈ tag.text, decide (c ≠ ',') = true := by
      intro c hc
      have hNe : c ≠ ',' := fun h => tag.notMem_text (by decide) (h ▸ hc)
      simpa using hNe
    have hStop : rest.takeWhile (fun c => decide (c ≠ ',')) = [] := by
      cases rest with
      | nil => rfl
      | cons c rest => simp [hRest c rfl]
    change Text.trim ((tag.text ++ rest).takeWhile fun c => decide (c ≠ ',')) = _
    rw [List.takeWhile_append_of_pos hChars, hStop, List.append_nil, tag.trim_text]
  refine Reads.line (fun number => ⟨[], rfl, ?_⟩) ?_
  · rw [hClean]
    simp [Step.of, Step.tagBlock, hEntry, hTag, tag.text_ne_nil]
  · rw [hClean, hLine]
    simp [tag.text_ne_nil]

theorem reads_tagLine (draft : Draft) (tag : Name) :
    Reads .standard (.tagBlock draft) [tagLine tag] (.tagBlock (draft.addTag tag.text)) [] :=
  reads_entry draft tag (clean_tagLine tag) rfl (by simp [Text.ofString])

theorem reads_tagLines (draft : Draft) (tags : List Name) :
    Reads .standard (.tagBlock draft) (tags.map tagLine)
      (.tagBlock { draft with tags := draft.tags ++ tags.map Name.text }) [] := by
  induction tags generalizing draft with
  | nil => simpa using Reads.nil
  | cons tag tags ih =>
    have hTail := (reads_tagLine draft tag).append (ih (draft.addTag tag.text))
    simpa [Draft.addTag, List.append_assoc] using hTail

theorem reads_tagBlockOpening (draft : Draft) :
    Reads .standard (.body draft) [tagBlockOpening]
      (.tagBlock { draft with hasTagBlock := true }) [] := by
  refine Reads.line (fun number => ⟨[], rfl, ?_⟩) ?_
  · rw [clean_tagBlockOpening]
    simp [Step.of, Step.body, startsWith_tagBlockOpening]
  · rw [clean_tagBlockOpening]
    simp [tagBlockOpening, Text.ofString]

theorem reads_tagBlockClosing (draft : Draft) :
    Reads .standard (.tagBlock draft) [closing] (.body draft) [] := by
  have hEntry : Conventions.standard.unqualified? closing = none := by with_unfolding_all decide
  have hMark : Conventions.standard.closeMark.isPrefixOf closing = true := by
    with_unfolding_all decide
  refine Reads.line (fun number => ⟨[], rfl, ?_⟩) ?_
  · rw [clean_closing]
    simp [Step.of, Step.tagBlock, hEntry, hMark]
  · rw [clean_closing]
    simp [closing, Text.ofString]

theorem reads_tagBlock (draft : Draft) (decl : Declaration) :
    Reads .standard (.body draft) decl.tagBlock
      (.body { draft with
        tags := draft.tags ++ (decl.tags?.getD []).map Name.text
        hasTagBlock := draft.hasTagBlock || decl.tags?.isSome }) [] := by
  rw [tagBlock]
  cases decl.tags? with
  | none => simpa using Reads.nil
  | some tags =>
    have hBlock := (reads_tagBlockOpening draft).append
      ((reads_tagLines _ tags).append (reads_tagBlockClosing _))
    simpa using hBlock

theorem reads_closing (draft : Draft) :
    Reads .standard (.body draft) [closing] .between [draft.closedNode .standard] := by
  have hBlock : (TokenLine.ofText closing).startsWith
      Conventions.standard.tagBlockWord = false := by
    with_unfolding_all decide
  have hMark : Conventions.standard.closeMark.isPrefixOf closing = true := by
    with_unfolding_all decide
  refine Reads.line (fun number => ⟨[.closed draft], rfl, ?_⟩) ?_
  · rw [clean_closing]
    simp [Step.of, Step.body, hBlock, Step.closes, hMark]
  · rw [clean_closing]
    simp [closing, Text.ofString]

/-- The header of a concrete declaration leads into its body, whose draft has the number of its
line. -/
theorem reads_header (decl : Declaration) {ts : List Text} {nodes : List NodeDecl}
    (h : ∀ line, Reads .standard (.body { name := decl.name.text, base := decl.base.text, line })
      ts .between nodes) :
    Reads .standard .between (decl.header :: ts) .between nodes := by
  intro number findings
  obtain ⟨found, hFound, hRead⟩ := h number (number + 1) findings
  refine ⟨found, hFound, ?_⟩
  have hFind := Header.find?_ofText_of_lexemes decl.lexemes_header
  have hStep : Step.of .standard .between ⟨number, decl.header⟩ =
      { mode := .body { name := decl.name.text, base := decl.base.text, line := number } } := by
    simp [Step.of, Step.between, startsWith_header, hFind, bodyStatements, Text.splitAfter]
  have hLine : Reading.ofLine .standard .between ⟨number, decl.header⟩ =
      ⟨.body { name := decl.name.text, base := decl.base.text, line := number }, []⟩ := by
    rw [Reading.ofLine_eq_step (by rw [hStep]), hStep]
  rw [← hRead]
  simp [Reading.readWritten, decl.clean_header, decl.header_ne_nil, Reading.read, Reading.andThen,
    hLine]

theorem reads_loneMark : Reads .standard .between [Text.ofString "abstract"] .guarded [] := by
  have hClean : Line.clean (Text.ofString "abstract") = Text.ofString "abstract" := by
    with_unfolding_all decide
  have hTokens : (TokenLine.ofText (Text.ofString "abstract")).startsWith
        Conventions.standard.abstractWord = true ∧
      (TokenLine.ofText (Text.ofString "abstract")).tokens.length = 1 := by
    with_unfolding_all decide
  refine Reads.line (fun number => ⟨[], rfl, ?_⟩) ?_
  · rw [hClean]
    simp [Step.of, Step.between, hTokens]
  · rw [hClean]
    simp [Text.ofString]

theorem reads_markAlone (decl : Declaration) :
    Reads .standard .between [Text.ofString "abstract", decl.header] .between [] := by
  have hHeader : Reads .standard .guarded [decl.header] .between [] := by
    refine Reads.line (fun number => ⟨[.skippedLine ⟨number, decl.header⟩], rfl, ?_⟩) ?_
    · simp [decl.clean_header, Step.of, Step.guarded, startsWith_header]
    · simpa [decl.clean_header] using decl.header_ne_nil
  exact reads_loneMark.append hHeader

theorem reads_markInFront (decl : Declaration) :
    Reads .standard .between [Text.concat ["abstract ", decl.header]] .between [] := by
  have hClean := decl.clean_inFront
  have hLexemes := decl.lexemes_inFront
  have hNonempty : Text.concat ["abstract ", decl.header] ≠ [] := by simp [decl.inFront_eq]
  generalize Text.concat ["abstract ", decl.header] = line at hClean hLexemes hNonempty ⊢
  have hMark : (TokenLine.ofText line).startsWith Conventions.standard.abstractWord = true := by
    rw [TokenLine.startsWith_ofText, hLexemes]
    simp [Conventions.standard]
  have hLength : (TokenLine.ofText line).tokens.length ≠ 1 := by
    rw [TokenLine.length_tokens_ofText, hLexemes, decl.lexemes_header]
    simp
  refine Reads.line (fun number => ?_) (by rwa [hClean])
  rw [hClean]
  -- whether a header is found only decides what is told about the line
  cases hFind : Header.find? (TokenLine.ofText line) with
  | none => exact ⟨[], rfl, by simp [Step.of, Step.between, hMark, hLength, hFind]⟩
  | some header =>
    exact ⟨[.skippedHeader header.name number], rfl,
      by simp [Step.of, Step.between, hMark, hLength, hFind]⟩

theorem reads_bodyLine {decl : Declaration} {before after : List Member} {t : Text}
    (h : t ∈ before.map Member.line ++ decl.tagBlock ++ after.map Member.line ++ [closing]) :
    Reads .standard .between [t] .between [] := by
  have hMembers {members : List Member} (hMem : t ∈ members.map Member.line) :
      Reads .standard .between [t] .between [] := by
    obtain ⟨member, -, rfl⟩ := List.mem_map.mp hMem
    refine reads_between (member.contains_clean_line (.inr rfl)) fun _ => ?_
    rw [TokenLine.length_tokens_ofText, member.lexemes_clean_line]
    simp
  have hClosing : Reads .standard .between [closing] .between [] :=
    reads_between (by with_unfolding_all decide) (by with_unfolding_all decide)
  simp only [List.mem_append, List.mem_singleton] at h
  rcases h with ((h | h) | h) | rfl
  · exact hMembers h
  · rw [tagBlock] at h
    cases hTags : decl.tags? with
    | none => simp [hTags] at h
    | some tags =>
      simp only [hTags, List.mem_append, List.mem_singleton] at h
      rcases h with (rfl | h) | rfl
      · exact reads_between (by with_unfolding_all decide) (by with_unfolding_all decide)
      · obtain ⟨tag, -, rfl⟩ := List.mem_map.mp h
        refine reads_between ?_ fun _ => ?_
        · rw [clean_tagLine, TokenLine.contains_ofText, lexemes_tagLine]
          rfl
        · rw [clean_tagLine, TokenLine.length_tokens_ofText, lexemes_tagLine]
          simp
      · exact hClosing
  · exact hMembers h
  · exact hClosing

theorem reads_markedBody {ts us : List Text}
    (hLines : ∀ t ∈ ts, Reads .standard .between [t] .between []) (h : WithNoise IsNoise ts us) :
    Reads .standard .between us .between [] := by
  induction h with
  | nil => exact Reads.nil
  | keep t _ ih =>
    exact (hLines t List.mem_cons_self).append
      (ih fun u hu => hLines u (List.mem_cons_of_mem _ hu))
  | insert t hNoise _ ih => exact (reads_noise hNoise).append (ih hLines)

theorem closedNode_eq_node (decl : Declaration) (line : Nat) (hasTagBlock : Bool) :
    Draft.closedNode .standard ⟨decl.name.text, decl.base.text, decl.members.map Member.field,
      (decl.tags?.getD []).map Name.text, hasTagBlock, line⟩ = decl.node := by
  rw [Draft.closedNode, node, tags]
  rcases decl.tags? with _ | _ | ⟨tag, tags⟩ <;> rfl

theorem Declaration.WrittenAs.reads {decl : Declaration} {ts : List Text}
    (h : decl.WrittenAs ts) :
    Reads .standard .between ts .between
      (if decl.marking = .concrete then [decl.node] else []) := by
  cases h with
  | @concrete before after ts us hMarking hMembers hBefore hAfter =>
    have hOpening : decl.opening ++ ts ++ decl.tagBlock ++ us ++ [closing] =
        decl.header :: (ts ++ (decl.tagBlock ++ (us ++ [closing]))) := by
      simp [opening, hMarking]
    rw [if_pos hMarking, hOpening]
    refine reads_header decl fun line => ?_
    have hBody := (reads_members { name := decl.name.text, base := decl.base.text, line } rfl
      hBefore).append ((reads_tagBlock _ decl).append ((reads_members _ rfl hAfter).append
        (reads_closing _)))
    rw [← closedNode_eq_node decl line decl.tags?.isSome, hMembers]
    simpa using hBody
  | marked hMarking hMembers hBody =>
    have hOpening : Reads .standard .between decl.opening .between [] := by
      rw [opening]
      cases hCase : decl.marking with
      | concrete => exact absurd hCase hMarking
      | alone => exact reads_markAlone decl
      | inFront => exact reads_markInFront decl
    rw [if_neg hMarking]
    exact hOpening.append (reads_markedBody (fun t => reads_bodyLine) hBody)

theorem WrittenHeader.reads {decls : List Declaration} {ts : List Text}
    (h : WrittenHeader decls ts) :
    Reads .standard .between ts .between
      ((decls.filter (·.marking = .concrete)).map Declaration.node) := by
  induction h with
  | nil => exact Reads.nil
  | noise t hNoise _ ih => exact (reads_noise hNoise).append ih
  | @declaration decl decls ts us hDecl _ ih =>
    have hBoth := hDecl.reads.append ih
    rw [List.filter_cons]
    by_cases hMarking : decl.marking = .concrete
    · simpa [hMarking] using hBoth
    · simpa [hMarking] using hBoth

/-- The catalog of a written header holds exactly the nodes of its concrete declarations, in their
order, whatever noise was written between them. -/
theorem toList_ofSource_written {decls : List Declaration} {ts : List Text}
    (h : WrittenHeader decls ts) :
    (Catalog.ofSource .standard (Text.join ['\n'] ts)).toList =
      (decls.filter (·.marking = .concrete)).map Declaration.node := by
  apply Reads.toList_ofSource
  by_cases hNil : ts = []
  · -- the empty text still has one line, which is noise
    subst hNil
    exact (h.noise [] ⟨by simp, by with_unfolding_all decide, by with_unfolding_all decide⟩).reads
  · rw [Text.split_join hNil h.notMem]
    exact h.reads

def sampleToken : WrittenType :=
  ⟨[.word ⟨"SyntaxToken", by with_unfolding_all decide⟩], .singleton _, _, _, rfl,
    by with_unfolding_all decide⟩

def sampleList : WrittenType :=
  ⟨[.word ⟨"SyntaxList", by with_unfolding_all decide⟩, .space, .less,
      .word ⟨"ExprSyntax", by with_unfolding_all decide⟩, .greater, .star],
    by simp [TypePart.isWord], _, _, rfl, by with_unfolding_all decide⟩

def sampleStart : Member := ⟨sampleToken, "start", by with_unfolding_all decide⟩

def sampleTerms : Member := ⟨sampleList, "terms", by with_unfolding_all decide⟩

def sampleExpr : Declaration where
  marking := .alone
  name := ⟨"ExprSyntax", by with_unfolding_all decide⟩
  base := ⟨"SyntaxBase", by with_unfolding_all decide⟩
  members := [sampleStart]
  tags? := none

def sampleSum : Declaration where
  marking := .concrete
  name := ⟨"SumSyntax", by with_unfolding_all decide⟩
  base := ⟨"ExprSyntax", by with_unfolding_all decide⟩
  members := [sampleTerms, sampleStart]
  tags? := some [⟨"Add", by with_unfolding_all decide⟩]

/-- Both written down, with an empty line between them and a function among the fields. -/
def sampleLines : List Text :=
  ["abstract", "struct ExprSyntax : SyntaxBase \x7b", "SyntaxToken start;", "\x7d;", "",
    "struct SumSyntax : ExprSyntax \x7b", "  int Count(); // terms",
    "SyntaxList <ExprSyntax>* terms;", "VALID_SYNTAX_KINDS = \x7b", "SyntaxKind::Add,", "\x7d;",
    "SyntaxToken start;", "\x7d;"]

theorem toList_ofSource_sample : WrittenHeader [sampleExpr, sampleSum] sampleLines ∧
    (Catalog.ofSource .standard (Text.join ['\n'] sampleLines)).toList =
      [⟨Text.ofString "SumSyntax", some (Text.ofString "ExprSyntax"),
        [⟨Text.ofString "terms", Text.ofString "SyntaxList<ExprSyntax>*"⟩,
          ⟨Text.ofString "start", Text.ofString "SyntaxToken"⟩], [Text.ofString "Add"]⟩] := by
  have hBlank : IsNoise (Text.ofString "") :=
    ⟨by simp [Text.ofString], by with_unfolding_all decide, by with_unfolding_all decide⟩
  have hCount : IsBodyNoise sampleSum.name.text "  int Count(); // terms" := by
    refine ⟨?_, ?_, ?_, ?_, ?_⟩ <;> with_unfolding_all decide
  have hExpr : sampleExpr.WrittenAs (sampleExpr.opening ++ [sampleStart.line, closing]) :=
    @WrittenAs.marked _ [sampleStart] [] _ (by decide) rfl (.keep _ (.keep _ .nil))
  have hSum : sampleSum.WrittenAs (sampleSum.opening ++
      [Text.ofString "  int Count(); // terms", sampleTerms.line] ++ sampleSum.tagBlock ++
      [sampleStart.line] ++ [closing]) :=
    @WrittenAs.concrete _ [sampleTerms] [sampleStart] _ _ rfl rfl
      (.insert _ hCount (.keep _ .nil)) (.keep _ .nil)
  have hWritten := WrittenHeader.declaration hExpr (.noise _ hBlank (.declaration hSum .nil))
  have hLines : WrittenHeader [sampleExpr, sampleSum] sampleLines := by
    convert hWritten using 1
    with_unfolding_all decide
  refine ⟨hLines, ?_⟩
  rw [toList_ofSource_written hLines]
  with_unfolding_all decide

end NodeScaffold
