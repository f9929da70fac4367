import NodeScaffold.Proofs.Recognition
import NodeScaffold.Proofs.Writing

/-! # The lexemes of written lines

Each line of a written declaration comes through cleaning with the same lexemes, which are those of
its parts. -/
namespace NodeScaffold
set_option autoImplicit false

namespace Name

theorem isWord (name : Name) : isWord name.text := isWord_of_isName name.isName

theorem notMem_text (name : Name) {c : Char} (hc : isWordPart c = false) : c ∉ name.text := by
  intro hMem
  rw [isWordPart_of_mem name.isWord hMem] at hc
  cases hc

theorem isBlank_of_mem_text (name : Name) {c : Char} (hc : c ∈ name.text) :
    Text.isBlank c = false := isBlank_of_isWordPart (isWordPart_of_mem name.isWord hc)

theorem text_ne_nil (name : Name) : name.text ≠ [] := by
  intro hNil
  have hWord := name.isWord
  rw [hNil] at hWord
  cases hWord

theorem trim_text (name : Name) : name.text.trim = name.text :=
  Text.trim_eq_self (fun _ hc => name.isBlank_of_mem_text (List.mem_of_mem_head? hc))
    fun _ hc => name.isBlank_of_mem_text (List.mem_of_mem_getLast? hc)

theorem lexemes_text_append (name : Name) {rest : Text}
    (hRest : ∀ c ∈ rest.head?, isWordPart c = false) :
    Text.lexemes (name.text ++ rest) = (.ident, name.text) :: Text.lexemes rest := by
  rw [Text.lexemes_word_append name.isWord hRest, wordKind_of_isName name.isName]

end Name

namespace TypePart

def lexeme? : TypePart → Option (TokenKind × Text)
  | word name => some (.ident, name.text)
  | scope => some (.colonColon, scope.text)
  | less => some (.less, less.text)
  | greater => some (.greater, greater.text)
  | star => some (.star, star.text)
  | ampersand => some (.ampersand, ampersand.text)
  | comma => some (.comma, comma.text)
  | space => none

theorem isWordPart_of_mem_head? {part : TypePart} (h : part.isWord = false) {rest : Text} :
    ∀ c ∈ (part.text ++ rest).head?, isWordPart c = false := by
  cases part with
  | word => cases h
  | _ => simp [text, isWordPart]

theorem lexemes_text_append (part : TypePart) {rest : Text}
    (hRest : part.isWord → ∀ c ∈ rest.head?, isWordPart c = false) :
    Text.lexemes (part.text ++ rest) = part.lexeme?.toList ++ Text.lexemes rest := by
  cases part with
  | word name => exact name.lexemes_text_append (hRest rfl)
  | scope => exact Text.lexemes_scope rest
  | space => exact Text.lexemes_gap (by decide) rest
  | _ => exact Text.lexemes_mark (by decide) rest

/-- The pieces of a type are read one by one. -/
theorem lexemes_flatMap_text {parts : List TypePart}
    (hApart : parts.IsChain fun p q => ¬(p.isWord ∧ q.isWord)) {rest : Text}
    (hRest : ∀ c ∈ rest.head?, isWordPart c = false) :
    Text.lexemes (parts.flatMap text ++ rest) = parts.filterMap lexeme? ++ Text.lexemes rest := by
  induction parts with
  | nil => rfl
  | cons part parts ih =>
    obtain ⟨hNext, hTail⟩ := List.isChain_cons.mp hApart
    have hBoundary : part.isWord → ∀ c ∈ (parts.flatMap text ++ rest).head?,
        isWordPart c = false := by
      intro hWord
      cases parts with
      | nil => exact hRest
      | cons next parts =>
        rw [List.flatMap_cons, List.append_assoc]
        exact isWordPart_of_mem_head? (by simpa [hWord] using hNext next rfl)
    rw [List.flatMap_cons, List.append_assoc, lexemes_text_append part hBoundary, ih hTail,
      List.filterMap_cons]
    cases part.lexeme? <;> rfl

/-- Without spaces and without blanks, a type is the same. -/
theorem withoutBlanks_lexemes (parts : List TypePart) :
    Text.withoutBlanks ((parts.filterMap lexeme?).flatMap Prod.snd) =
      (parts.flatMap text).filter (· ≠ ' ') := by
  induction parts with
  | nil => rfl
  | cons part parts ih =>
    have hPart : Text.withoutBlanks (part.lexeme?.toList.flatMap Prod.snd) =
        part.text.filter (· ≠ ' ') := by
      cases part with
      | word name =>
        have hBlanks : name.text.filter (!Text.isBlank ·) = name.text :=
          List.filter_eq_self.mpr fun c hc => by simp [name.isBlank_of_mem_text hc]
        have hSpaces : name.text.filter (· ≠ ' ') = name.text :=
          List.filter_eq_self.mpr fun c hc => by
            have hc' : c ≠ ' ' := fun h => name.notMem_text (by decide) (h ▸ hc)
            simpa using hc'
        simpa [lexeme?, Text.withoutBlanks, text] using hBlanks.trans hSpaces.symm
      | _ => decide
    have hSplit : ((part :: parts).filterMap lexeme?).flatMap Prod.snd =
        part.lexeme?.toList.flatMap Prod.snd ++ (parts.filterMap lexeme?).flatMap Prod.snd := by
      rw [List.filterMap_cons]
      cases part.lexeme? <;> simp
    rw [hSplit, Text.withoutBlanks_append, hPart, ih, List.flatMap_cons, List.filter_append]

theorem kind_of_mem_lexemes {parts : List TypePart} {lexeme : TokenKind × Text}
    (h : lexeme ∈ parts.filterMap lexeme?) :
    lexeme.1 ≠ .parenOpen ∧ lexeme.1 ≠ .structWord := by
  obtain ⟨part, -, hPart⟩ := List.mem_filterMap.mp h
  cases part <;> cases hPart <;> simp

/-- The first lexeme of a type. -/
theorem head?_filterMap_lexeme? {parts rest : List TypePart} {first : TypePart}
    (h : parts.dropWhile isSpace = first :: rest) :
    ∃ kind, kind ≠ .braceClose ∧
      (parts.filterMap lexeme?).head? = some (kind, first.text) := by
  induction parts with
  | nil => cases h
  | cons part parts ih =>
    cases part with
    | space => exact ih h
    | _ =>
      cases h
      exact ⟨_, by simp, rfl⟩

end TypePart

namespace Member

theorem line_eq (member : Member) :
    member.line = member.type.text ++ ' ' :: (member.name.text ++ [';']) := by
  simp [line, Text.concat, Text.ofString]

theorem mem_line {member : Member} {c : Char} (hc : c ∈ member.line) :
    isWordPart c ∨ c ∈ [':', '<', '>', '*', '&', ',', ' ', ';'] := by
  have hName {name : Name} (h : c ∈ name.text) : isWordPart c := isWordPart_of_mem name.isWord h
  simp only [line_eq, List.mem_append, List.mem_cons, List.not_mem_nil, or_false] at hc
  rcases hc with hc | rfl | hc | rfl
  · obtain ⟨part, -, hPart⟩ := List.mem_flatMap.mp hc
    cases part with
    | word name => exact .inl (hName hPart)
    | _ => simp_all [TypePart.text]
  · simp
  · exact .inl (hName hc)
  · simp

theorem clean_line (member : Member) : Line.clean member.line = Text.trimStart member.line := by
  have hSlash : '/' ∉ member.line := fun h => absurd (mem_line h) (by decide)
  have hEnd : member.line = (member.type.text ++ ' ' :: member.name.text) ++ [';'] := by
    simp [line_eq]
  rw [Line.clean_eq_trim hSlash, hEnd, Text.trim_concat (by decide)]

/-- The lexemes of a field line are those of its type, its name and a semicolon. -/
theorem lexemes_clean_line (member : Member) :
    Text.lexemes (Line.clean member.line) =
      member.type.parts.filterMap TypePart.lexeme? ++
        [(.ident, member.name.text), (.semicolon, [';'])] := by
  have hBlanks : ∀ c ∈ member.line, Text.isBlank c → isGap c := by
    intro c hc hBlank
    rcases mem_line hc with hPart | hMark
    · simp [isBlank_of_isWordPart hPart] at hBlank
    · simp only [List.mem_cons, List.not_mem_nil, or_false] at hMark
      obtain rfl | rfl | rfl | rfl | rfl | rfl | rfl | rfl := hMark <;> revert hBlank <;> decide
  rw [clean_line, Text.lexemes_trimStart hBlanks, line_eq]
  rw [WrittenType.text, TypePart.lexemes_flatMap_text member.type.apart (by simp [isWordPart]),
    Text.lexemes_gap (by decide), member.name.lexemes_text_append (by simp [isWordPart]),
    Text.lexemes_mark (by decide), Text.lexemes_nil]
  rfl

/-- A field line has no parenthesis and no keyword. -/
theorem contains_clean_line (member : Member) {kind : TokenKind}
    (hKind : kind = .parenOpen ∨ kind = .structWord) :
    (TokenLine.ofText (Line.clean member.line)).contains kind = false := by
  rw [TokenLine.contains_ofText, member.lexemes_clean_line, List.any_append, Bool.or_eq_false_iff]
  constructor
  · rw [List.any_eq_false]
    intro lexeme hMem
    have hNot := TypePart.kind_of_mem_lexemes hMem
    rcases hKind with rfl | rfl
    · simpa using hNot.1
    · simpa using hNot.2
  · rcases hKind with rfl | rfl <;> rfl

/-- A field line declares its field. -/
theorem ofLine?_clean_line (member : Member) :
    FieldDecl.ofLine? (TokenLine.ofText (Line.clean member.line)) = some member.field := by
  obtain ⟨first, rest, hStart, -⟩ := member.type.start
  obtain ⟨kind, -, hHead⟩ := TypePart.head?_filterMap_lexeme? hStart
  refine FieldDecl.ofLine?_ofText_eq_some_iff.mpr
    ⟨_, member.name.text, [';'], ?_, member.lexemes_clean_line, ?_, ?_⟩
  · intro hNil
    simp [hNil] at hHead
  · exact fun lexeme hMem => (TypePart.kind_of_mem_lexemes hMem).1
  · rw [field, WrittenType.compact, WrittenType.text, TypePart.withoutBlanks_lexemes]

end Member

namespace Declaration

theorem header_eq (decl : Declaration) :
    decl.header = Text.ofString "struct" ++ ' ' :: (decl.name.text ++ ' ' :: ':' :: ' ' ::
      (decl.base.text ++ [' ', '\x7b'])) := by
  simp [header, Text.concat, Text.ofString]

theorem notMem_header (decl : Declaration) {c : Char} (hPart : isWordPart c = false)
    (hMarks : c ∉ [' ', ':', '\x7b']) : c ∉ decl.header := by
  have hName := decl.name.notMem_text hPart
  have hBase := decl.base.notMem_text hPart
  have hKeyword : c ∉ Text.ofString "struct" := by
    intro hMem
    rw [isWordPart_of_mem (by with_unfolding_all decide) hMem] at hPart
    cases hPart
  simp only [List.mem_cons, List.not_mem_nil, or_false, not_or] at hMarks
  simp [header_eq, hName, hBase, hKeyword, hMarks]

theorem header_ne_nil (decl : Declaration) : decl.header ≠ [] := by simp [header_eq]

theorem getLast?_header (decl : Declaration) : decl.header.getLast? = some '\x7b' := by
  have hLast : (Text.ofString " \x7b").getLast? = some '\x7b' := by with_unfolding_all decide
  simp [header, Text.concat, hLast]

theorem clean_header (decl : Declaration) : Line.clean decl.header = decl.header := by
  have hFirst : (Text.ofString "struct ").head? = some 's' := by with_unfolding_all decide
  refine Line.clean_eq_self (decl.notMem_header (by decide) (by decide)) ?_ ?_
  · simp [header, Text.concat, hFirst, show Text.isBlank 's' = false by decide]
  · simp [getLast?_header, show Text.isBlank '\x7b' = false by decide]

theorem lexemes_header (decl : Declaration) :
    Text.lexemes decl.header = [(.structWord, Text.ofString "struct"), (.ident, decl.name.text),
      (.colon, [':']), (.ident, decl.base.text), (.braceOpen, ['\x7b'])] := by
  rw [header_eq, Text.lexemes_word_append (by with_unfolding_all decide) (by simp [isWordPart]),
    Text.lexemes_gap (by decide), decl.name.lexemes_text_append (by simp [isWordPart]),
    Text.lexemes_gap (by decide), Text.lexemes_colon (by simp), Text.lexemes_gap (by decide),
    decl.base.lexemes_text_append (by simp [isWordPart]), Text.lexemes_gap (by decide),
    Text.lexemes_mark (by decide), Text.lexemes_nil]
  simp [wordKind, markKind]

theorem startsWith_header (decl : Declaration) (word : Text) :
    (TokenLine.ofText decl.header).startsWith word = false := by
  rw [TokenLine.startsWith_ofText, decl.lexemes_header]
  rfl

theorem inFront_eq (decl : Declaration) : Text.concat ["abstract ", decl.header] =
    Text.ofString "abstract" ++ ' ' :: decl.header := by
  simp [Text.concat, Text.ofString]

theorem clean_inFront (decl : Declaration) :
    Line.clean (Text.concat ["abstract ", decl.header]) =
      Text.concat ["abstract ", decl.header] := by
  have hSlash : '/' ∉ decl.header := decl.notMem_header (by decide) (by decide)
  have hMark : '/' ∉ Text.ofString "abstract " := by simp [Text.ofString]
  have hFirst : (Text.ofString "abstract ").head? = some 'a' := by simp [Text.ofString]
  refine Line.clean_eq_self ?_ ?_ ?_
  · simp [Text.concat, hMark, hSlash]
  · simp [Text.concat, hFirst, show Text.isBlank 'a' = false by decide]
  · simp [Text.concat, decl.getLast?_header, show Text.isBlank '\x7b' = false by decide]

theorem lexemes_inFront (decl : Declaration) :
    Text.lexemes (Text.concat ["abstract ", decl.header]) =
      (.ident, Text.ofString "abstract") :: decl.header.lexemes := by
  rw [inFront_eq, Text.lexemes_word_append (by with_unfolding_all decide) (by simp [isWordPart]),
    Text.lexemes_gap (by decide), wordKind_of_isName (by with_unfolding_all decide)]

theorem notMem_tagLine (tag : Name) {c : Char} (hPart : isWordPart c = false)
    (hMarks : c ∉ [':', ',']) : c ∉ tagLine tag := by
  have hQualifier : ∀ d ∈ Text.ofString "SyntaxKind::", isWordPart d ∨ d = ':' := by
    simp [Text.ofString, isWordPart]
  have hSeparator : ∀ d ∈ Text.ofString ",", d = ',' := by simp [Text.ofString]
  simp only [List.mem_cons, List.not_mem_nil, or_false, not_or] at hMarks
  intro hMem
  simp only [tagLine, Text.concat, List.flatten_cons, List.flatten_nil,
    List.append_nil, List.mem_append] at hMem
  rcases hMem with hMem | hMem | hMem
  · rcases hQualifier c hMem with h | h
    · simp [h] at hPart
    · exact hMarks.1 h
  · exact tag.notMem_text hPart hMem
  · exact hMarks.2 (hSeparator c hMem)

theorem clean_tagLine (tag : Name) :
    Line.clean (tagLine tag) = tagLine tag := by
  have hFirst : (Text.ofString "SyntaxKind::").head? = some 'S' := by with_unfolding_all decide
  have hLast : (Text.ofString ",").getLast? = some ',' := by with_unfolding_all decide
  refine Line.clean_eq_self (notMem_tagLine tag (by decide) (by decide)) ?_ ?_
  · simp [tagLine, Text.concat, hFirst, show Text.isBlank 'S' = false by decide]
  · simp [tagLine, Text.concat, hLast, show Text.isBlank ',' = false by decide]

theorem lexemes_tagLine (tag : Name) :
    Text.lexemes (tagLine tag) = [(.ident, Text.ofString "SyntaxKind"),
      (.colonColon, [':', ':']), (.ident, tag.text), (.comma, [','])] := by
  have hLine : tagLine tag =
      Text.ofString "SyntaxKind" ++ ':' :: ':' :: (tag.text ++ [',']) := by
    simp [tagLine, Text.concat, Text.ofString]
  rw [hLine, Text.lexemes_word_append (by with_unfolding_all decide) (by simp [isWordPart]),
    wordKind_of_isName (by with_unfolding_all decide), Text.lexemes_scope,
    tag.lexemes_text_append (by simp [isWordPart]), Text.lexemes_mark (by decide),
    Text.lexemes_nil]
  rfl

theorem clean_closing : Line.clean closing = closing := by with_unfolding_all decide

theorem clean_tagBlockOpening : Line.clean tagBlockOpening = tagBlockOpening := by
  with_unfolding_all decide

theorem startsWith_tagBlockOpening :
    (TokenLine.ofText tagBlockOpening).startsWith Conventions.standard.tagBlockWord = true := by
  with_unfolding_all decide

theorem notMem_opening (decl : Declaration) : ∀ t ∈ decl.opening, '\n' ∉ t := by
  have hHeader : '\n' ∉ decl.header := decl.notMem_header (by decide) (by decide)
  have hMark : '\n' ∉ Text.ofString "abstract" ∧ '\n' ∉ Text.ofString "abstract " := by
    simp [Text.ofString]
  rw [opening]
  cases decl.marking <;> simp [hHeader, hMark, Text.concat]

theorem notMem_closing : '\n' ∉ closing := by simp [closing, Text.ofString]

theorem notMem_tagBlock (decl : Declaration) : ∀ t ∈ decl.tagBlock, '\n' ∉ t := by
  rw [tagBlock]
  cases decl.tags? with
  | none => simp
  | some tags =>
    intro t ht
    simp only [List.mem_append, List.mem_singleton, List.mem_map] at ht
    rcases ht with (rfl | ⟨tag, -, rfl⟩) | rfl
    · simp [tagBlockOpening, Text.ofString]
    · exact notMem_tagLine tag (by decide) (by decide)
    · exact notMem_closing

end Declaration

theorem WithNoise.forall_of_forall {noise P : Text → Prop} {ts us : List Text}
    (h : WithNoise noise ts us) (hLines : ∀ t ∈ ts, P t) (hNoise : ∀ t, noise t → P t) :
    ∀ t ∈ us, P t := by
  induction h with
  | nil => exact hLines
  | keep t _ ih =>
    obtain ⟨hHead, hTail⟩ := List.forall_mem_cons.mp hLines
    exact List.forall_mem_cons.mpr ⟨hHead, ih hTail⟩
  | insert t ht _ ih => exact List.forall_mem_cons.mpr ⟨hNoise t ht, ih hLines⟩

theorem Declaration.WrittenAs.notMem {decl : Declaration} {ts : List Text}
    (h : decl.WrittenAs ts) : ∀ t ∈ ts, '\n' ∉ t := by
  have hMembers (members : List Member) : ∀ t ∈ members.map Member.line, '\n' ∉ t := by
    intro t ht
    obtain ⟨member, -, rfl⟩ := List.mem_map.mp ht
    exact fun hMem => absurd (Member.mem_line hMem) (by decide)
  intro t ht
  cases h with
  | concrete hMarking _ hBefore hAfter =>
    simp only [List.mem_append, List.mem_singleton] at ht
    rcases ht with (((ht | ht) | ht) | ht) | rfl
    · exact decl.notMem_opening t ht
    · exact hBefore.forall_of_forall (hMembers _) (fun _ => And.left) t ht
    · exact decl.notMem_tagBlock t ht
    · exact hAfter.forall_of_forall (hMembers _) (fun _ => And.left) t ht
    · exact notMem_closing
  | marked hMarking _ hBody =>
    rcases List.mem_append.mp ht with ht | ht
    · exact decl.notMem_opening t ht
    · refine hBody.forall_of_forall (fun u hu => ?_) (fun _ => And.left) t ht
      simp only [List.mem_append, List.mem_singleton] at hu
      rcases hu with ((hu | hu) | hu) | rfl
      · exact hMembers _ u hu
      · exact decl.notMem_tagBlock u hu
      · exact hMembers _ u hu
      · exact notMem_closing

/-- No line of a written header holds a line break. -/
theorem WrittenHeader.notMem {decls : List Declaration} {ts : List Text}
    (h : WrittenHeader decls ts) : ∀ t ∈ ts, '\n' ∉ t := by
  induction h with
  | nil => simp
  | noise t hNoise _ ih =>
    intro u hu
    rcases List.mem_cons.mp hu with rfl | hu
    · exact hNoise.1
    · exact ih u hu
  | declaration hDecl _ ih =>
    intro u hu
    rcases List.mem_append.mp hu with hu | hu
    · exact hDecl.notMem u hu
    · exact ih u hu

end NodeScaffold
