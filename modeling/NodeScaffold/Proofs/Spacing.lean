import NodeScaffold.Proofs.FieldLines
import NodeScaffold.Proofs.Numbering
import NodeScaffold.Proofs.Signs

/-! # Reading lines that are spaced differently

Two runs over lines with the same signs take the same steps, so they find the same nodes. The gaps
of a line do not matter otherwise, but inside of a close mark or of the qualifier of a tag they
do. -/
namespace NodeScaffold
set_option autoImplicit false

namespace Text
variable {t : Text}

/-- A text that starts with a sign that joins the next one starts with a mark. -/
theorem exists_of_joined (hHead : ∀ c ∈ t.head?, isBlank c = false) {sign : Sign}
    (hSign : sign ∈ t.signs.head?) (hJoined : sign.joined) :
    ∃ token next rest, token ∈ (TokenLine.ofText t).tokens ∧ next ∈ (TokenLine.ofText t).tokens ∧
      t = token.lexeme ++ (next.lexeme ++ rest) ∧ token.kind = sign.kind ∧
      (token.kind = .braceClose ∧ next.kind = .semicolon ∨
        token.kind = .ident ∧ token.lexeme = ofString "SyntaxKind" ∧ next.kind = .colonColon) := by
  have hText := TokenLine.text_ofText t
  have hGaps := (TokenLine.isGap_of_mem_ofText t).2
  rw [signs] at hSign
  generalize TokenLine.ofText t = line at hText hGaps hSign
  obtain ⟨_ | ⟨token, _ | ⟨next, tokens⟩⟩, rest⟩ := line
  · cases hSign
  · cases hSign
    cases hJoined
  · cases hSign
    have hGap : token.gap = [] := by
      cases hCons : token.gap with
      | nil => rfl
      | cons c gap =>
        have hc : isGap c := hGaps token List.mem_cons_self c (by simp [hCons])
        have hBlank := hHead c (by simp [← hText, TokenLine.text, Token.text, hCons])
        rw [isBlank_of_isGap hc] at hBlank
        cases hBlank
    simp only [List.head?_cons, Option.any_some, Token.joins, Bool.and_eq_true, Bool.or_eq_true,
      List.isEmpty_iff, decide_eq_true_eq, and_assoc] at hJoined
    refine ⟨token, next, TokenLine.text ⟨tokens, rest⟩, by simp, by simp, ?_, rfl, hJoined.2⟩
    rw [← hText]
    simp [TokenLine.text, Token.text, hGap, hJoined.1]

theorem signs_closeMark (rest : Text) :
    signs ('\x7d' :: ';' :: rest) = ⟨.braceClose, ['\x7d'], true⟩ :: signs (';' :: rest) := by
  have hLexed : Lexed.ofText '\x7d' (';' :: rest) = ⟨.braceClose, [], ';' :: rest⟩ := rfl
  have hNext : Lexed.ofText ';' rest = ⟨.semicolon, [], rest⟩ := rfl
  rw [signs, ofText_cons (by decide), hLexed, Sign.ofTokens, signs]
  simp [ofText_cons (c := ';') (by decide), hNext, Token.joins]

theorem signs_qualifier (entry : Text) :
    signs (ofString "SyntaxKind" ++ ':' :: ':' :: entry) =
      ⟨.ident, ofString "SyntaxKind", true⟩ :: signs (':' :: ':' :: entry) := by
  have hWord : ofString "SyntaxKind" = 'S' :: ofString "yntaxKind" := by simp [ofString]
  have hLexed : Lexed.ofText 'S' (ofString "yntaxKind" ++ ':' :: ':' :: entry) =
      ⟨.ident, ofString "yntaxKind", ':' :: ':' :: entry⟩ := by
    have hMore : ∀ c ∈ ofString "yntaxKind", isWordPart c :=
      List.all_eq_true.mp (by with_unfolding_all decide)
    have hKind : wordKind ('S' :: ofString "yntaxKind") = .ident := by with_unfolding_all decide
    have hColon : isWordPart ':' = false := by decide
    rw [Lexed.ofText_word (by decide), List.takeWhile_append_of_pos hMore,
      List.dropWhile_append_of_pos hMore]
    simp [hColon, hKind]
  have hNext : Lexed.ofText ':' (':' :: entry) = ⟨.colonColon, [':'], entry⟩ := rfl
  rw [hWord, List.cons_append, signs, ofText_cons (by decide), hLexed, Sign.ofTokens, signs]
  simp [ofText_cons (c := ':') (by decide), hNext, Token.joins, ofString]

theorem closeMark_isPrefixOf_iff (hHead : ∀ c ∈ t.head?, isBlank c = false) :
    Conventions.standard.closeMark.isPrefixOf t ↔
      ∃ sign ∈ t.signs.head?, sign.kind = .braceClose ∧ sign.joined := by
  have hMark : Conventions.standard.closeMark = ['\x7d', ';'] := by
    simp [Conventions.standard, ofString]
  rw [hMark, List.isPrefixOf_iff_prefix]
  constructor
  · rintro ⟨rest, rfl⟩
    refine ⟨⟨.braceClose, ['\x7d'], true⟩, ?_, rfl, rfl⟩
    exact congrArg List.head? (signs_closeMark rest)
  · rintro ⟨sign, hSign, hKind, hJoined⟩
    obtain ⟨token, next, rest, hToken, hNext, hText, hSame, hCase⟩ :=
      exists_of_joined hHead hSign hJoined
    obtain ⟨hBrace, hSemicolon⟩ | ⟨hIdent, -⟩ := hCase
    · have hFirst := @TokenLine.lexeme_eq_of_mark t token hToken '\x7d' hBrace (by decide)
      have hSecond := @TokenLine.lexeme_eq_of_mark t next hNext ';' hSemicolon (by decide)
      exact ⟨rest, by rw [hText, hFirst, hSecond]; rfl⟩
    · rw [← hSame, hIdent] at hKind
      cases hKind

theorem unqualified?_eq_some_iff {entry : Text} :
    Conventions.standard.unqualified? t = some entry ↔
      t = ofString "SyntaxKind" ++ ':' :: ':' :: entry := by
  have hEnum : Conventions.standard.tagEnum = ofString "SyntaxKind" := rfl
  have hScope : ofString "::" = [':', ':'] := by simp [ofString]
  rw [Conventions.unqualified?, hEnum, hScope]
  constructor
  · intro h
    obtain ⟨rest, hRest, hEntry⟩ := Option.bind_eq_some_iff.mp h
    rw [eq_append_of_dropHead? hRest, eq_append_of_dropHead? hEntry]
    rfl
  · rintro rfl
    rw [dropHead?_append]
    exact dropHead?_append [':', ':'] entry

/-- A text is qualified exactly if its first sign says so. -/
theorem exists_unqualified?_iff (hHead : ∀ c ∈ t.head?, isBlank c = false) :
    (∃ entry, Conventions.standard.unqualified? t = some entry) ↔
      ∃ sign ∈ t.signs.head?, sign.kind = .ident ∧ sign.joined := by
  simp only [unqualified?_eq_some_iff]
  constructor
  · rintro ⟨entry, rfl⟩
    refine ⟨⟨.ident, ofString "SyntaxKind", true⟩, ?_, rfl, rfl⟩
    exact congrArg List.head? (signs_qualifier entry)
  · rintro ⟨sign, hSign, hKind, hJoined⟩
    obtain ⟨token, next, rest, -, hNext, hText, hSame, hCase⟩ :=
      exists_of_joined hHead hSign hJoined
    obtain ⟨hBrace, -⟩ | ⟨-, hWord, hScope⟩ := hCase
    · rw [← hSame, hBrace] at hKind
      cases hKind
    · have hMatch := TokenLine.matches_of_mem_ofText hNext (by simp [hScope])
      rw [hScope, TokenKind.matches_colonColon] at hMatch
      exact ⟨rest, by rw [hText, hWord, hMatch]; rfl⟩

theorem lexemes_of_unqualified? {entry : Text}
    (h : Conventions.standard.unqualified? t = some entry) :
    t.lexemes = (.ident, ofString "SyntaxKind") :: (.colonColon, [':', ':']) :: entry.lexemes := by
  have hWord : isWord (ofString "SyntaxKind") := by with_unfolding_all decide
  have hKind : wordKind (ofString "SyntaxKind") = .ident := by with_unfolding_all decide
  have hColon : isWordPart ':' = false := by decide
  rw [unqualified?_eq_some_iff.mp h, lexemes_word_append hWord (by simp [hColon]), hKind,
    lexemes_scope]

/-- The tag of an entry that is a single identifier, with a comma or without one. -/
theorem entryTag_of_lexemes {entry name : Text}
    (h : entry.lexemes = [(.ident, name)] ∨ entry.lexemes = [(.ident, name), (.comma, [','])]) :
    Step.entryTag .standard entry = name := by
  have hText := TokenLine.text_ofText entry
  have hGaps := TokenLine.isGap_of_mem_ofText entry
  have hName : isWord name := by
    have hMem : (.ident, name) ∈ entry.lexemes := by rcases h with h | h <;> simp [h]
    obtain ⟨token, hToken, hEq⟩ := List.mem_map.mp hMem
    obtain ⟨hKind, rfl⟩ := Prod.mk.inj hEq
    exact isWord_of_isName (TokenLine.isName_of_mem_ofText hToken hKind)
  obtain ⟨gap, gap', more, rfl, hGap, hGap', hMore⟩ : ∃ gap gap' more,
      entry = gap ++ (name ++ gap') ++ more ∧ (∀ c ∈ gap, isGap c) ∧ (∀ c ∈ gap', isGap c) ∧
      more.takeWhile (· ≠ ',') = [] := by
    rw [lexemes, TokenLine.lexemes] at h
    generalize TokenLine.ofText entry = line at h hText hGaps
    obtain ⟨tokens, rest⟩ := line
    simp only [List.map_eq_cons_iff, List.map_eq_nil_iff, Prod.mk.injEq] at h
    rcases h with ⟨token, _, rfl, ⟨-, rfl⟩, rfl⟩ |
      ⟨token, _, rfl, ⟨-, rfl⟩, comma, _, rfl, ⟨-, hComma⟩, rfl⟩
    · refine ⟨token.gap, rest, [], ?_, hGaps.2 token List.mem_cons_self, hGaps.1, rfl⟩
      simp [← hText, TokenLine.text, Token.text]
    · refine ⟨token.gap, comma.gap, ',' :: rest, ?_, hGaps.2 token List.mem_cons_self,
        hGaps.2 comma (by simp), by simp⟩
      simp [← hText, TokenLine.text, Token.text, hComma]
  have hNoComma : ∀ c ∈ gap ++ (name ++ gap'), decide (c ≠ ',') := by
    have hPlain {c : Char} (hc : isGap c ∨ isWordPart c) : decide (c ≠ ',') := by
      apply decide_eq_true
      rintro rfl
      revert hc
      decide
    simp only [List.forall_mem_append]
    exact ⟨fun c hc => hPlain (.inl (hGap c hc)),
      fun c hc => hPlain (.inr (isWordPart_of_mem hName hc)),
      fun c hc => hPlain (.inl (hGap' c hc))⟩
  have hSeparator : Conventions.standard.tagSeparator = ',' := rfl
  rw [Step.entryTag, hSeparator, List.takeWhile_append_of_pos hNoComma, hMore, List.append_nil,
    trim_blanks_append fun c hc => isBlank_of_isGap (hGap c hc),
    trim_append_blanks fun c hc => isBlank_of_isGap (hGap' c hc)]
  exact trim_eq_self_of_forall fun c hc => isBlank_of_isWordPart (isWordPart_of_mem hName hc)

end Text

/-- Headers on two lines: the same words, and bodies behind as many tokens of their lines. -/
structure Header.Corresponds (line line' : TokenLine) (header header' : Header) : Prop where
  name : header.name = header'.name
  base : header.base? = header'.base?
  body : header.body = [] ∧ header'.body = [] ∨ ∃ n,
    header.body = (TokenLine.text ⟨line.tokens.drop n, line.rest⟩).trim ∧
    header'.body = (TokenLine.text ⟨line'.tokens.drop n, line'.rest⟩).trim

namespace Header
variable {tokens tokens' : List Token} {rest rest' : Text}

/-- A header at the head of a line is recognised by its lexemes. -/
theorem exists_atHead?_of_lexemes {header : Header}
    (h : TokenLine.lexemes ⟨tokens, rest⟩ = TokenLine.lexemes ⟨tokens', rest'⟩)
    (hHead : atHead? ⟨tokens, rest⟩ = some header) :
    ∃ header', atHead? ⟨tokens', rest'⟩ = some header' ∧
      Corresponds ⟨tokens, rest⟩ ⟨tokens', rest'⟩ header header' := by
  unfold atHead? at hHead
  dsimp only at hHead
  split at hHead
  case h_5 => cases hHead
  all_goals
    cases hHead
    simp only [TokenLine.lexemes, List.map_cons, eq_comm (a := _ :: _), List.map_eq_cons_iff,
      Prod.mk.injEq] at h
  case h_1 =>
    obtain ⟨⟨_, _, _⟩, _, rfl, ⟨rfl, rfl⟩, ⟨_, _, _⟩, _, rfl, ⟨rfl, rfl⟩, ⟨_, _, _⟩, _, rfl,
      ⟨rfl, rfl⟩, ⟨_, _, _⟩, _, rfl, ⟨rfl, rfl⟩, ⟨_, _, _⟩, _, rfl, ⟨rfl, rfl⟩, -⟩ := h
    exact ⟨_, rfl, rfl, rfl, .inr ⟨5, rfl, rfl⟩⟩
  case h_2 =>
    obtain ⟨⟨_, _, _⟩, _, rfl, ⟨rfl, rfl⟩, ⟨_, _, _⟩, _, rfl, ⟨rfl, rfl⟩, ⟨_, _, _⟩, _, rfl,
      ⟨rfl, rfl⟩, ⟨_, _, _⟩, _, rfl, ⟨rfl, rfl⟩, ⟨_, _, _⟩, _, rfl, ⟨rfl, rfl⟩, -⟩ := h
    exact ⟨_, rfl, rfl, rfl, .inl ⟨rfl, rfl⟩⟩
  case h_3 =>
    obtain ⟨⟨_, _, _⟩, _, rfl, ⟨rfl, rfl⟩, ⟨_, _, _⟩, _, rfl, ⟨rfl, rfl⟩, ⟨_, _, _⟩, _, rfl,
      ⟨rfl, rfl⟩, -⟩ := h
    exact ⟨_, rfl, rfl, rfl, .inr ⟨3, rfl, rfl⟩⟩
  case h_4 =>
    obtain ⟨⟨_, _, _⟩, _, rfl, ⟨rfl, rfl⟩, ⟨_, _, _⟩, _, rfl, ⟨rfl, rfl⟩, ⟨_, _, _⟩, _, rfl,
      ⟨rfl, rfl⟩, -⟩ := h
    exact ⟨_, rfl, rfl, rfl, .inl ⟨rfl, rfl⟩⟩

theorem atHead?_eq_none_of_lexemes
    (h : TokenLine.lexemes ⟨tokens, rest⟩ = TokenLine.lexemes ⟨tokens', rest'⟩)
    (hHead : atHead? ⟨tokens, rest⟩ = none) : atHead? ⟨tokens', rest'⟩ = none := by
  rw [Option.eq_none_iff_forall_ne_some]
  intro header' hSome
  obtain ⟨header, hHeader, -⟩ := exists_atHead?_of_lexemes h.symm hSome
  rw [hHead] at hHeader
  cases hHeader

/-- The leftmost header is found at the same place of two lines with the same lexemes. -/
theorem search_of_lexemes
    (h : TokenLine.lexemes ⟨tokens, rest⟩ = TokenLine.lexemes ⟨tokens', rest'⟩) :
    search rest tokens = none ∧ search rest' tokens' = none ∨
    ∃ header header', search rest tokens = some header ∧ search rest' tokens' = some header' ∧
      Corresponds ⟨tokens, rest⟩ ⟨tokens', rest'⟩ header header' := by
  induction tokens generalizing tokens' with
  | nil =>
    have hNil : tokens' = [] := by simpa [TokenLine.lexemes] using h.symm
    subst hNil
    exact .inl ⟨rfl, rfl⟩
  | cons token tokens ih =>
    obtain ⟨token', tokens', rfl, hToken, hTokens⟩ := List.map_eq_cons_iff.mp h.symm
    rw [search, search]
    cases hHead : atHead? ⟨token :: tokens, rest⟩ with
    | some header =>
      obtain ⟨header', hHead', hAlike⟩ := exists_atHead?_of_lexemes h hHead
      rw [hHead']
      exact .inr ⟨header, header', rfl, rfl, hAlike⟩
    | none =>
      rw [atHead?_eq_none_of_lexemes h hHead]
      obtain hNone | ⟨header, header', hFind, hFind', hName, hBase, hBody⟩ := ih hTokens.symm
      · exact .inl hNone
      · refine .inr ⟨header, header', hFind, hFind', hName, hBase, ?_⟩
        obtain hNil | ⟨n, hDrop, hDrop'⟩ := hBody
        · exact .inl hNil
        · exact .inr ⟨n + 1, hDrop, hDrop'⟩

/-- Texts with the same signs have the same header, with the same signs in its body. -/
theorem find?_of_signs {t u : Text} (h : t.signs = u.signs) :
    find? (TokenLine.ofText t) = none ∧ find? (TokenLine.ofText u) = none ∨
    ∃ name base? body body', find? (TokenLine.ofText t) = some ⟨name, base?, body⟩ ∧
      find? (TokenLine.ofText u) = some ⟨name, base?, body'⟩ ∧ body.signs = body'.signs := by
  obtain hNone | ⟨⟨name, base?, body⟩, ⟨_, _, body'⟩, hFind, hFind', hName, hBase, hBody⟩ :=
    search_of_lexemes (Text.signs_eq_iff.mp h).1
  · exact .inl hNone
  · cases hName
    cases hBase
    refine .inr ⟨name, base?, body, body', hFind, hFind', ?_⟩
    obtain ⟨rfl, rfl⟩ | ⟨n, rfl, rfl⟩ := hBody
    · rfl
    · have hDrop (t : Text) : (TokenLine.text
          ⟨(TokenLine.ofText t).tokens.drop n, (TokenLine.ofText t).rest⟩).signs =
            t.signs.drop n := by
        rw [Text.signs, TokenLine.ofText_text_drop]
        exact Sign.ofTokens_drop _ n
      rw [Text.signs_trim, Text.signs_trim, hDrop, hDrop, h]

end Header

/-- A text that is read in a tag block and starts with the tokens of a qualifier has one identifier
behind them, and perhaps a comma. -/
def Moment.PlainEntry (moment : Moment) : Prop :=
  ∀ draft entry, moment.mode = .tagBlock draft →
    moment.line.text.lexemes =
      (.ident, Text.ofString "SyntaxKind") :: (.colonColon, [':', ':']) :: entry →
    ∃ name, entry = [(.ident, name)] ∨ entry = [(.ident, name), (.comma, [','])]

namespace Step

/-- Steps that lead to the same mode, find the same node and leave texts with the same signs. -/
structure Alike (step step' : Step) : Prop where
  mode : step.mode = step'.mode
  nodes : step.findings.filterMap (·.node? .standard) =
    step'.findings.filterMap (·.node? .standard)
  inner : List.Forall₂ Text.Respaced step.inner step'.inner

theorem Alike.of_eq {step step' : Step} (h : step = step') (hInner : step.inner = []) :
    Alike step step' := by
  subst h
  exact ⟨rfl, rfl, by rw [hInner]; exact .nil⟩

variable {t u : Text}

theorem startsWith_of_lexemes (h : t.lexemes = u.lexemes) (word : Text) :
    (TokenLine.ofText t).startsWith word = (TokenLine.ofText u).startsWith word := by
  rw [TokenLine.startsWith_ofText, TokenLine.startsWith_ofText, h]

theorem alike_between (h : t.Respaced u) :
    Alike (between .standard ⟨0, t⟩ (TokenLine.ofText t))
      (between .standard ⟨0, u⟩ (TokenLine.ofText u)) := by
  have hLength : (TokenLine.ofText t).tokens.length = (TokenLine.ofText u).tokens.length := by
    rw [TokenLine.length_tokens_ofText, TokenLine.length_tokens_ofText, h.lexemes]
  have hFind := Header.find?_of_signs h.signs
  unfold between
  rw [startsWith_of_lexemes h.lexemes, hLength]
  split
  · split
    · exact .of_eq rfl rfl
    · obtain ⟨hNone, hNone'⟩ | ⟨name, base?, body, body', hSome, hSome', -⟩ := hFind
      · rw [hNone, hNone']
        exact .of_eq rfl rfl
      · rw [hSome, hSome']
        exact .of_eq rfl rfl
  · obtain ⟨hNone, hNone'⟩ | ⟨name, base?, body, body', hSome, hSome', hBody⟩ := hFind
    · rw [hNone, hNone']
      exact .of_eq rfl rfl
    · rw [hSome, hSome']
      cases base? with
      | none => exact .of_eq rfl rfl
      | some base => exact ⟨rfl, rfl, Text.forall₂_bodyStatements hBody⟩

theorem alike_guarded (h : t.Respaced u) :
    Alike (guarded .standard ⟨0, t⟩ (TokenLine.ofText t))
      (guarded .standard ⟨0, u⟩ (TokenLine.ofText u)) := by
  unfold guarded
  rw [startsWith_of_lexemes h.lexemes]
  split
  · exact alike_between h
  · exact ⟨rfl, rfl, .nil⟩

theorem head?_of_trim {t : Text} (h : t.trim = t) : ∀ c ∈ t.head?, Text.isBlank c = false := by
  rw [← h]
  exact Text.isBlank_of_mem_head?_trim t

theorem closeMark_of_respaced (h : t.Respaced u) :
    Conventions.standard.closeMark.isPrefixOf t = Conventions.standard.closeMark.isPrefixOf u := by
  rw [Bool.eq_iff_iff, Text.closeMark_isPrefixOf_iff (head?_of_trim h.trim_left),
    Text.closeMark_isPrefixOf_iff (head?_of_trim h.trim_right), h.signs]

theorem alike_body (h : t.Respaced u) (draft : Draft) :
    Alike (body .standard draft ⟨0, t⟩ (TokenLine.ofText t))
      (body .standard draft ⟨0, u⟩ (TokenLine.ofText u)) := by
  have hCloses : closes .standard draft ⟨0, t⟩ (TokenLine.ofText t) =
      closes .standard draft ⟨0, u⟩ (TokenLine.ofText u) := by
    simp only [closes, startsWith_of_lexemes h.lexemes, TokenLine.contains_ofText, h.lexemes,
      closeMark_of_respaced h]
  have hField :
      FieldDecl.ofLine? (TokenLine.ofText t) = FieldDecl.ofLine? (TokenLine.ofText u) := by
    apply Option.ext
    intro field
    rw [FieldDecl.ofLine?_eq_some_iff_spelledBy, FieldDecl.ofLine?_eq_some_iff_spelledBy, h.lexemes]
  unfold body
  rw [startsWith_of_lexemes h.lexemes, hCloses, hField]
  split
  · exact .of_eq rfl rfl
  · split
    · exact .of_eq rfl rfl
    · split
      · exact .of_eq rfl rfl
      · exact .of_eq rfl rfl

theorem alike_tagBlock (h : t.Respaced u) {draft : Draft}
    (hPlain : Moment.PlainEntry ⟨.tagBlock draft, ⟨0, t⟩⟩) :
    Alike (tagBlock .standard draft ⟨0, t⟩) (tagBlock .standard draft ⟨0, u⟩) := by
  have hQualified : (∃ entry, Conventions.standard.unqualified? t = some entry) ↔
      ∃ entry, Conventions.standard.unqualified? u = some entry := by
    rw [Text.exists_unqualified?_iff (head?_of_trim h.trim_left),
      Text.exists_unqualified?_iff (head?_of_trim h.trim_right), h.signs]
  simp only [tagBlock]
  cases hEntry : Conventions.standard.unqualified? t with
  | some entry =>
    obtain ⟨entry', hEntry'⟩ := hQualified.mp ⟨entry, hEntry⟩
    have hLexemes := Text.lexemes_of_unqualified? hEntry
    have hLexemes' := Text.lexemes_of_unqualified? hEntry'
    have hSame : entry.lexemes = entry'.lexemes := by
      rw [h.lexemes, hLexemes'] at hLexemes
      simpa using hLexemes.symm
    obtain ⟨name, hName⟩ := hPlain draft entry.lexemes rfl hLexemes
    rw [hEntry']
    dsimp only
    apply Alike.of_eq
    · rw [Text.entryTag_of_lexemes hName, Text.entryTag_of_lexemes (hSame ▸ hName)]
    · rfl
  | none =>
    have hEntry' : Conventions.standard.unqualified? u = none := by
      rw [Option.eq_none_iff_forall_ne_some]
      intro entry' hEntry'
      obtain ⟨entry, hSome⟩ := hQualified.mpr ⟨entry', hEntry'⟩
      rw [hEntry] at hSome
      cases hSome
    rw [hEntry', closeMark_of_respaced h]
    dsimp only
    split
    · exact .of_eq rfl rfl
    · exact .of_eq rfl rfl

/-- What spacing cannot change about a step. -/
theorem alike_of (h : t.Respaced u) {mode : Mode} (hPlain : Moment.PlainEntry ⟨mode, ⟨0, t⟩⟩) :
    Alike (of .standard mode ⟨0, t⟩) (of .standard mode ⟨0, u⟩) := by
  cases mode with
  | between => exact alike_between h
  | guarded => exact alike_guarded h
  | body draft => exact alike_body h draft
  | tagBlock draft => exact alike_tagBlock h hPlain

end Step

namespace Moment
variable {moment moment' : Moment}

theorem node?_eq_head? (conv : Conventions) (moment : Moment) :
    moment.node? conv = ((moment.step conv).findings.filterMap (·.node? conv)).head? := by
  rw [findings_eq, node?]
  cases moment.finding? conv with
  | none => rfl
  | some finding => cases hNode : finding.node? conv <;> simp [hNode]

/-- What spacing cannot change about a moment. -/
theorem alike_step (hMode : moment.mode.unnumbered = moment'.mode.unnumbered)
    (hText : moment.line.text.Respaced moment'.line.text) (hPlain : moment.PlainEntry) :
    (moment.step .standard).mode.unnumbered = (moment'.step .standard).mode.unnumbered ∧
    moment.node? .standard = moment'.node? .standard ∧
    List.Forall₂ Text.Respaced (moment.step .standard).inner (moment'.step .standard).inner := by
  have hUnnumbered : PlainEntry ⟨moment.mode.unnumbered, ⟨0, moment.line.text⟩⟩ := by
    intro draft entry hBlock hLexemes
    cases hOpen : moment.mode with
    | tagBlock draft' => exact hPlain draft' entry hOpen hLexemes
    | _ => simp [hOpen, Mode.unnumbered] at hBlock
  have hAlike := Step.alike_of hText hUnnumbered
  have hStep := Step.unnumbered_of .standard moment.line.number moment.line.text moment.mode
  have hStep' := Step.unnumbered_of .standard moment'.line.number moment'.line.text moment'.mode
  rw [← hMode] at hStep'
  rw [← hStep, ← hStep'] at hAlike
  obtain ⟨hModes, hNodes, hInner⟩ := hAlike
  refine ⟨hModes, ?_, hInner⟩
  simp only [Step.unnumbered, List.filterMap_map, Function.comp_def,
    Finding.node?_unnumbered] at hNodes
  rw [node?_eq_head?, node?_eq_head?]
  exact congrArg List.head? hNodes

end Moment

/-- Two runs over lines with the same signs find the same nodes, moment by moment. -/
theorem Trace.nodes_of_respaced {mode mode' stop stop' : Mode} {lines lines' : List Line}
    {moments moments' : List Moment} (h : Trace .standard mode lines moments stop)
    (h' : Trace .standard mode' lines' moments' stop')
    (hMode : mode.unnumbered = mode'.unnumbered)
    (hLines : List.Forall₂ (fun line line' => line.text.Respaced line'.text) lines lines')
    (hPlain : ∀ moment ∈ moments, moment.PlainEntry) :
    moments.filterMap (·.node? .standard) = moments'.filterMap (·.node? .standard) := by
  induction h generalizing mode' lines' moments' with
  | nil mode =>
    cases hLines
    cases h'
    rfl
  | @cons mode stop line agenda moments tail ih =>
    obtain _ | ⟨hLine, hAgenda⟩ := hLines
    rename_i line' agenda'
    obtain _ | ⟨tail'⟩ := h'
    rename_i moments'
    obtain ⟨hFirst, hMore⟩ := List.forall_mem_cons.mp hPlain
    obtain ⟨hModes, hNode, hInner⟩ :=
      @Moment.alike_step ⟨mode, line⟩ ⟨mode', line'⟩ hMode hLine hFirst
    have hRest :
        moments.filterMap (·.node? .standard) = moments'.filterMap (·.node? .standard) := by
      refine ih tail' hModes (List.rel_append ?_ hAgenda) hMore
      exact List.forall₂_map_left_iff.mpr (List.forall₂_map_right_iff.mpr hInner)
    rw [List.filterMap_cons, List.filterMap_cons, hNode, hRest]

theorem Reading.filterMap_node?_of_trace {conv : Conventions} {reading : Reading}
    {moments : List Moment} (h : reading.findings = moments.filterMap (·.finding? conv)) :
    reading.atEnd.filterMap (·.node? conv) = moments.filterMap (·.node? conv) := by
  rw [filterMap_node?_atEnd, h, List.filterMap_filterMap]
  rfl

/-- Lines with the same lexemes declare the same nodes, however they are spaced, if their close
marks and qualifiers are written together at the same places and every entry of a tag block is a
single identifier with a comma or without one. -/
theorem ofFindings_ofLines_respaced {lines lines' : List Line}
    (hLines : List.Forall₂ (fun line line' => line.text.Respaced line'.text) lines lines')
    (hEntries : ∀ moments stop, Trace .standard .between lines moments stop →
      ∀ moment ∈ moments, moment.PlainEntry) :
    Catalog.ofFindings .standard (Reading.ofLines .standard lines).atEnd =
      Catalog.ofFindings .standard (Reading.ofLines .standard lines').atEnd := by
  obtain ⟨moments, hTrace, hFindings⟩ := Trace.exists_ofLines .standard lines
  obtain ⟨moments', hTrace', hFindings'⟩ := Trace.exists_ofLines .standard lines'
  have hNodes := hTrace.nodes_of_respaced hTrace' rfl hLines (hEntries moments _ hTrace)
  rw [Catalog.ofFindings, Catalog.ofFindings, Reading.filterMap_node?_of_trace hFindings,
    Reading.filterMap_node?_of_trace hFindings', hNodes]

def narrowLines : List Line := [
  ⟨1, "struct SumSyntax:ExprSyntax\x7b"⟩,
  ⟨2, "SyntaxList<Expr>*terms;"⟩,
  ⟨3, "VALID_SYNTAX_KINDS=\x7b"⟩,
  ⟨4, "SyntaxKind::Add,"⟩,
  ⟨5, "SyntaxKind::Sub"⟩,
  ⟨6, "\x7d;"⟩,
  ⟨7, "\x7d;"⟩]

/-- The same declaration with gaps wherever they may stand. -/
def wideLines : List Line := [
  ⟨1, "struct  SumSyntax : ExprSyntax \x7b"⟩,
  ⟨3, "SyntaxList < Expr > * terms ;"⟩,
  ⟨4, "VALID_SYNTAX_KINDS =\t\x7b"⟩,
  ⟨6, "SyntaxKind:: Add ,"⟩,
  ⟨7, "SyntaxKind::\tSub"⟩,
  ⟨9, "\x7d;"⟩,
  ⟨10, "\x7d;"⟩]

theorem plainEntry_narrowLines {moments : List Moment} {stop : Mode}
    (h : Trace .standard .between narrowLines moments stop) :
    ∀ moment ∈ moments, moment.PlainEntry := by
  have hBodies : ∀ line ∈ narrowLines,
      ∀ header ∈ Header.find? (TokenLine.ofText line.text), header.body = [] := by
    decide +kernel
  have hEntries : ∀ line ∈ narrowLines, line.text.lexemes.take 2 =
      [(.ident, Text.ofString "SyntaxKind"), (.colonColon, [':', ':'])] →
        line.text.lexemes.drop 2 = [(.ident, Text.ofString "Add"), (.comma, [','])] ∨
        line.text.lexemes.drop 2 = [(.ident, Text.ofString "Sub")] := by
    decide +kernel
  have hMoments : ∀ moment ∈ moments, moment.line ∈ narrowLines := by
    refine h.forall_line (Q := (· ∈ narrowLines)) ?_ fun line hLine => hLine
    -- no body starts on the line of its header
    intro mode line hLine s hs
    have hCase := Step.case_of .standard line mode
    generalize Step.of .standard mode line = step at hCase hs
    cases hCase with
    | openBody hFind =>
      have hBody := hBodies line hLine _ hFind
      dsimp only at hBody
      rw [hBody] at hs
      cases hs
    | _ => cases hs
  intro moment hMoment draft entry _ hLexemes
  have hEntry := hEntries moment.line (hMoments moment hMoment)
  rw [hLexemes] at hEntry
  rcases hEntry rfl with hAdd | hSub
  · exact ⟨_, .inr hAdd⟩
  · exact ⟨_, .inl hSub⟩

theorem ofFindings_ofLines_respaced_wideLines :
    List.Forall₂ (fun line line' => line.text.Respaced line'.text) narrowLines wideLines ∧
    (Catalog.ofFindings .standard (Reading.ofLines .standard narrowLines).atEnd).toList =
      [⟨Text.ofString "SumSyntax", some (Text.ofString "ExprSyntax"),
        [⟨Text.ofString "terms", Text.ofString "SyntaxList<Expr>*"⟩],
        [Text.ofString "Add", Text.ofString "Sub"]⟩] ∧
    Catalog.ofFindings .standard (Reading.ofLines .standard narrowLines).atEnd =
      Catalog.ofFindings .standard (Reading.ofLines .standard wideLines).atEnd := by
  have hPairs : ∀ pair ∈ narrowLines.zip wideLines,
      pair.1.text.trim = pair.1.text ∧ pair.2.text.trim = pair.2.text ∧
      pair.1.text.lexemes = pair.2.text.lexemes ∧ pair.1.text.joints = pair.2.text.joints := by
    decide +kernel
  have hLines : List.Forall₂ (fun line line' => line.text.Respaced line'.text)
      narrowLines wideLines := by
    refine List.forall₂_iff_zip.mpr ⟨rfl, fun {line line'} hMem => ?_⟩
    obtain ⟨hTrim, hTrim', hLexemes, hJoints⟩ := hPairs _ hMem
    exact ⟨hTrim, hTrim', hLexemes, hJoints⟩
  refine ⟨hLines, by decide +kernel, ?_⟩
  exact ofFindings_ofLines_respaced hLines fun moments stop hTrace =>
    plainEntry_narrowLines hTrace

def pairLines (mark : Text) : List Line :=
  [⟨1, "struct PairSyntax : SyntaxBase \x7b"⟩, ⟨2, "SyntaxToken left;"⟩, ⟨3, mark⟩]

/-- A gap in the close mark changes no lexeme, and yet the node is lost. -/
theorem ofFindings_ofLines_gapInMark :
    (∀ line ∈ pairLines "\x7d;" ++ pairLines "\x7d ;",
      line.text.trim = line.text ∧ line.text ≠ [] ∧
      (.ident, Text.ofString "SyntaxKind") ∉ line.text.lexemes) ∧
    (pairLines "\x7d;").map (·.text.lexemes) = (pairLines "\x7d ;").map (·.text.lexemes) ∧
    (Catalog.ofFindings .standard
      (Reading.ofLines .standard (pairLines "\x7d;")).atEnd).toList =
        [⟨Text.ofString "PairSyntax", some (Text.ofString "SyntaxBase"),
          [⟨Text.ofString "left", Text.ofString "SyntaxToken"⟩], [Text.ofString "Pair"]⟩] ∧
    (Catalog.ofFindings .standard
      (Reading.ofLines .standard (pairLines "\x7d ;")).atEnd).toList = [] := by
  decide +kernel

end NodeScaffold
