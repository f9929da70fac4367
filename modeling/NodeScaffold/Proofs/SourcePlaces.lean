import NodeScaffold.Proofs.TokenRules
import NodeScaffold.Proofs.Traces

/-! # Where in the source a text stands

Whatever the reader takes is a part of the cleaned line with its number, and a header that it finds
is spelled out in it, from the keyword to the brace or semicolon. -/
namespace NodeScaffold
set_option autoImplicit false

/-- A text stands in the cleaned line of the source with its number, counted from one. -/
def Line.StandsIn (source : Text) (line : Line) : Prop :=
  1 ≤ line.number ∧ ∃ t, (cleanAll source)[line.number - 1]? = some t ∧ line.text <:+: t

/-- A text is a header of the given name: the keyword, the name, perhaps a colon and a base, and an
opening brace or a semicolon. -/
def Header.SpelledAs (name t : Text) : Prop :=
  ∃ more, t.lexemes = (.structWord, Text.ofString "struct") :: (.ident, name) :: more ∧
    more.map Prod.fst ∈ [[.braceOpen], [.semicolon], [.colon, .ident, .braceOpen],
      [.colon, .ident, .semicolon]]

theorem TokenLine.eq_keyword_of_mem_ofText {t : Text} {token : Token}
    (h : token ∈ (ofText t).tokens) (hKind : token.kind = .structWord) :
    token.lexeme = Text.ofString "struct" := by
  fun_induction ofText t with
  | case1 => simp at h
  | case2 t c following _ lexed line ih =>
    rcases List.mem_cons.mp h with rfl | h
    · exact Lexed.kind_eq_structWord_iff.mp hKind
    · exact ih h

/-- The tokens behind the first ones are those of the text behind them. -/
theorem TokenLine.ofText_text_drop (t : Text) (n : Nat) :
    ofText (text ⟨(ofText t).tokens.drop n, (ofText t).rest⟩) =
      ⟨(ofText t).tokens.drop n, (ofText t).rest⟩ := by
  induction n generalizing t with
  | zero => rw [List.drop_zero, text_ofText]
  | succ n ih =>
    cases hDrop : t.dropWhile isGap with
    | nil =>
      rw [ofText_of_dropWhile_eq_nil hDrop]
      simpa [text] using ofText_of_dropWhile_eq_nil hDrop
    | cons c following =>
      rw [ofText_of_dropWhile_eq_cons hDrop]
      exact ih (Lexed.ofText c following).rest

namespace Header

/-- The tokens that a line starts with spell the header that it starts with. -/
theorem exists_take_of_atHead? {line : TokenLine} {header : Header}
    (hKeyword : ∀ token ∈ line.tokens, token.kind = .structWord →
      token.lexeme = Text.ofString "struct")
    (h : atHead? line = some header) : ∃ n more,
      (line.tokens.take n).map (fun token => (token.kind, token.lexeme)) =
        (.structWord, Text.ofString "struct") :: (.ident, header.name) :: more ∧
      more.map Prod.fst ∈ [[.braceOpen], [.semicolon], [.colon, .ident, .braceOpen],
        [.colon, .ident, .semicolon]] := by
  obtain ⟨tokens, rest⟩ := line
  unfold atHead? at h
  dsimp only at h
  split at h
  case h_5 => cases h
  all_goals
    cases h
    rw [← hKeyword _ List.mem_cons_self rfl]
  case h_1 | h_2 => exact ⟨5, _, rfl, by simp⟩
  case h_3 | h_4 => exact ⟨3, _, rfl, by simp⟩

/-- A header that is found in a text is spelled out in it. -/
theorem exists_spelledAs_of_find? {t : Text} {header : Header}
    (h : find? (TokenLine.ofText t) = some header) : ∃ u, u <:+: t ∧ SpelledAs header.name u := by
  obtain ⟨m, -, hHead⟩ := search_eq_some_iff.mp h
  obtain ⟨n, more, hTokens, hMore⟩ := exists_take_of_atHead?
    (fun token hToken => TokenLine.eq_keyword_of_mem_ofText (List.mem_of_mem_drop hToken)) hHead
  have hFrom := TokenLine.ofText_text_drop t m
  have hWhole := TokenLine.text_take_append_text_drop (TokenLine.ofText t) m
  rw [TokenLine.text_ofText] at hWhole
  generalize TokenLine.text ⟨(TokenLine.ofText t).tokens.drop m, (TokenLine.ofText t).rest⟩ = later
    at hFrom hWhole
  have hUpTo := TokenLine.ofText_text_take later n
  have hLater := TokenLine.text_take_append_text_drop (TokenLine.ofText later) n
  rw [TokenLine.text_ofText] at hLater
  refine ⟨TokenLine.text ⟨(TokenLine.ofText later).tokens.take n, []⟩, ?_, more, ?_, hMore⟩
  · exact (List.IsPrefix.isInfix ⟨_, hLater⟩).trans (List.IsSuffix.isInfix ⟨_, hWhole⟩)
  · rw [Text.lexemes, hUpTo, TokenLine.lexemes, hFrom]
    exact hTokens

end Header

namespace Line
variable {source : Text}

theorem standsIn_of_mem_ofSource {line : Line} (h : line ∈ ofSource source) :
    line.StandsIn source := by
  obtain ⟨hMem, -⟩ := List.mem_filter.mp h
  obtain ⟨⟨t, n⟩, hZip, rfl⟩ := List.mem_map.mp hMem
  obtain ⟨hPos, hLength, hText⟩ := List.mem_zipIdx hZip
  refine ⟨hPos, t, ?_, List.infix_rfl⟩
  have hIndex : n - 1 < (cleanAll source).length := by omega
  rw [List.getElem?_eq_getElem hIndex, hText]

theorem StandsIn.of_isInfix {line : Line} (h : line.StandsIn source) {s : Text}
    (hs : s <:+: line.text) : StandsIn source ⟨line.number, s⟩ := by
  obtain ⟨hPos, t, hLine, hInfix⟩ := h
  exact ⟨hPos, t, hLine, hs.trans hInfix⟩

def HeaderStandsIn (source name : Text) (number : Nat) : Prop :=
  ∃ header, Header.SpelledAs name header ∧ StandsIn source ⟨number, header⟩

theorem StandsIn.header {line : Line} (h : line.StandsIn source) {header : Header}
    (hFind : Header.find? (TokenLine.ofText line.text) = some header) :
    HeaderStandsIn source header.name line.number := by
  obtain ⟨u, hInfix, hSpelled⟩ := Header.exists_spelledAs_of_find? hFind
  exact ⟨u, hSpelled, h.of_isInfix hInfix⟩

end Line

theorem isInfix_of_mem_bodyStatements {body s : Text} (h : s ∈ bodyStatements body) :
    s <:+: body := by
  obtain ⟨piece, hPiece, rfl⟩ := List.mem_map.mp (List.mem_filter.mp h).1
  have hInfix := List.infix_of_mem_flatten hPiece
  rw [Text.flatten_splitAfter] at hInfix
  exact (Text.trim_isInfix piece).trans hInfix

/-- The statements that a line leaves to be read are parts of the line. -/
theorem Step.isInfix_of_mem_inner {conv : Conventions} {mode : Mode} {line : Line} {s : Text}
    (h : s ∈ (of conv mode line).inner) : s <:+: line.text := by
  have hCase := case_of conv line mode
  generalize of conv mode line = step at hCase h
  cases hCase with
  | openBody hFind =>
    have hBody := Header.body_isInfix_of_find? hFind
    rw [TokenLine.text_ofText] at hBody
    exact (isInfix_of_mem_bodyStatements h).trans hBody
  | _ => cases h

/-- All that is read of a source stands in it under its number. -/
theorem Trace.standsIn {conv : Conventions} {source : Text} {moments : List Moment} {mode : Mode}
    (h : Trace conv .between (Line.ofSource source) moments mode) :
    ∀ moment ∈ moments, moment.line.StandsIn source :=
  h.forall_line (fun _ _ hLine _ hs => hLine.of_isInfix (Step.isInfix_of_mem_inner hs))
    fun _ => Line.standsIn_of_mem_ofSource

end NodeScaffold
