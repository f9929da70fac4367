import NodeScaffold.Declaration.FieldLine
import NodeScaffold.Declaration.Header
import NodeScaffold.Proofs.Lexing
import NodeScaffold.Proofs.Texts

/-! # Fields and headers by their lexemes

Which field or header a line declares is decided by its lexemes alone: the type of a field is the
text of the lexemes before its name, and the words of a header are identifiers of the line. -/
namespace NodeScaffold
set_option autoImplicit false

namespace TokenLine

theorem startsWith_ofText (t word : Text) :
    (ofText t).startsWith word = (t.lexemes.head? == some (.ident, word)) := by
  simp only [startsWith, Text.lexemes, lexemes]
  cases (ofText t).tokens with
  | nil => rfl
  | cons token tokens =>
    rw [Bool.eq_iff_iff]
    simp [Prod.ext_iff]

theorem contains_ofText (t : Text) (kind : TokenKind) :
    (ofText t).contains kind = t.lexemes.any (·.1 = kind) := by
  simp [contains, Text.lexemes, lexemes, List.any_map, Function.comp_def]

theorem length_tokens_ofText (t : Text) : (ofText t).tokens.length = t.lexemes.length := by
  simp [Text.lexemes, lexemes]

theorem text_isSuffix (before after : List Token) (rest : Text) :
    text ⟨after, rest⟩ <:+ text ⟨before ++ after, rest⟩ := by
  simp [text]

/-- Without its blanks, a run of tokens is the text of its lexemes. -/
theorem withoutBlanks_text {tokens : List Token} {rest : Text}
    (hRest : ∀ c ∈ rest, isGap c) (hGaps : ∀ token ∈ tokens, ∀ c ∈ token.gap, isGap c) :
    Text.withoutBlanks (text ⟨tokens, rest⟩) =
      Text.withoutBlanks (tokens.flatMap Token.lexeme) := by
  induction tokens with
  | nil => exact Text.withoutBlanks_eq_nil fun c hc => isBlank_of_isGap (hRest c hc)
  | cons token tokens ih =>
    have hGap : Text.withoutBlanks token.gap = [] :=
      Text.withoutBlanks_eq_nil fun c hc =>
        isBlank_of_isGap (hGaps token List.mem_cons_self c hc)
    have hTail := ih fun u hu => hGaps u (List.mem_cons_of_mem _ hu)
    have hText : text ⟨token :: tokens, rest⟩ =
        token.gap ++ token.lexeme ++ text ⟨tokens, rest⟩ := by
      simp [text, Token.text]
    rw [hText, List.flatMap_cons, Text.withoutBlanks_append, Text.withoutBlanks_append,
      Text.withoutBlanks_append, hGap, hTail, List.nil_append]

end TokenLine

namespace FieldDecl

theorem ofLine?_eq_some_iff {line : TokenLine} {field : FieldDecl} :
    ofLine? line = some field ↔
      ∃ tokens gap name gap' semicolon, tokens ≠ [] ∧
        line.tokens = tokens ++ [⟨gap, .ident, name⟩, ⟨gap', .semicolon, semicolon⟩] ∧
        line.contains .parenOpen = false ∧
        field = declare name (TokenLine.text ⟨tokens, gap⟩).trim := by
  constructor
  · intro h
    unfold ofLine? at h
    split at h
    · rename_i gap' semicolon gap name token before hReverse
      split at h
      · cases h
      · next hParen =>
        cases h
        refine ⟨(token :: before).reverse, gap, name, gap', semicolon, by simp, ?_,
          by simpa using hParen, rfl⟩
        rw [List.reverse_eq_iff.mp hReverse]
        simp
    · cases h
  · rintro ⟨tokens, gap, name, gap', semicolon, hNonempty, hTokens, hParen, rfl⟩
    obtain ⟨token, before, hReverse⟩ :=
      List.exists_cons_of_ne_nil (List.reverse_ne_nil_iff.mpr hNonempty)
    have hBefore : tokens = (token :: before).reverse := List.reverse_eq_iff.mp hReverse
    simp [ofLine?, hTokens, hParen, hBefore]

/-- A line declares a field exactly if its lexemes are those of a type, a name and a semicolon,
without a parenthesis; the type is then the text of its lexemes without blanks. -/
theorem ofLine?_ofText_eq_some_iff {t : Text} {field : FieldDecl} :
    ofLine? (TokenLine.ofText t) = some field ↔
      ∃ before name semicolon, before ≠ [] ∧
        t.lexemes = before ++ [(.ident, name), (.semicolon, semicolon)] ∧
        (∀ lexeme ∈ before, lexeme.1 ≠ .parenOpen) ∧
        field = ⟨name, Text.withoutBlanks (before.flatMap Prod.snd)⟩ := by
  have hGaps := (TokenLine.isGap_of_mem_ofText t).2
  -- the type of the field, once the line is cut before its name
  have hType (tokens : List Token) (gap name gap' semicolon : Text)
      (hTokens : (TokenLine.ofText t).tokens =
        tokens ++ [⟨gap, .ident, name⟩, ⟨gap', .semicolon, semicolon⟩]) :
      declare name (TokenLine.text ⟨tokens, gap⟩).trim =
        ⟨name, Text.withoutBlanks (tokens.flatMap Token.lexeme)⟩ := by
    rw [hTokens] at hGaps
    rw [declare, Text.withoutBlanks_trim, TokenLine.withoutBlanks_text
      (hGaps ⟨gap, .ident, name⟩ (by simp)) fun u hu => hGaps u (List.mem_append_left _ hu)]
  rw [ofLine?_eq_some_iff]
  constructor
  · rintro ⟨tokens, gap, name, gap', semicolon, hNonempty, hTokens, hParen, rfl⟩
    refine ⟨tokens.map fun u => (u.kind, u.lexeme), name, semicolon, by simpa using hNonempty,
      by simp [Text.lexemes, TokenLine.lexemes, hTokens], ?_, ?_⟩
    · simp only [TokenLine.contains, hTokens, List.any_append, Bool.or_eq_false_iff] at hParen
      simpa using hParen.1
    · rw [hType tokens gap name gap' semicolon hTokens, List.flatMap_map]
  · rintro ⟨before, _, _, hNonempty, hLexemes, hParen, rfl⟩
    have hContains : (TokenLine.ofText t).contains .parenOpen = false := by
      rw [TokenLine.contains_ofText, hLexemes]
      simpa using hParen
    simp only [Text.lexemes, TokenLine.lexemes] at hLexemes
    obtain ⟨tokens, ending, hTokens, rfl, hEnding⟩ := List.map_eq_append_iff.mp hLexemes
    obtain ⟨⟨gap, _, name⟩, _, rfl, hName, hTail⟩ := List.map_eq_cons_iff.mp hEnding
    obtain ⟨⟨gap', _, semicolon⟩, _, rfl, hSemicolon, hNil⟩ := List.map_eq_cons_iff.mp hTail
    cases hName
    cases hSemicolon
    cases List.map_eq_nil_iff.mp hNil
    refine ⟨tokens, gap, name, gap', semicolon, by simpa using hNonempty, hTokens, hContains, ?_⟩
    rw [hType tokens gap name gap' semicolon hTokens, List.flatMap_map]

end FieldDecl

namespace Header

theorem atHead?_eq_none {token : Token} (h : token.kind ≠ .structWord) (tokens : List Token)
    (rest : Text) : atHead? ⟨token :: tokens, rest⟩ = none := by
  unfold atHead?
  split <;> simp_all

/-- The header that is found is the first one on the way from left to right. -/
theorem search_eq_some_iff {tokens : List Token} {rest : Text} {header : Header} :
    search rest tokens = some header ↔
      ∃ n, (∀ m < n, atHead? ⟨tokens.drop m, rest⟩ = none) ∧
        atHead? ⟨tokens.drop n, rest⟩ = some header := by
  induction tokens with
  | nil => simp [search, atHead?]
  | cons token tokens ih =>
    rw [search]
    constructor
    · intro h
      split at h
      · next hFound =>
        cases h
        exact ⟨0, by simp, hFound⟩
      · next hNone =>
        obtain ⟨n, hLeft, hHead⟩ := ih.mp h
        refine ⟨n + 1, fun m hm => ?_, hHead⟩
        cases m with
        | zero => exact hNone
        | succ m => exact hLeft m (Nat.lt_of_succ_lt_succ hm)
    · rintro ⟨n, hLeft, hHead⟩
      cases n with
      | zero =>
        rw [List.drop_zero] at hHead
        rw [hHead]
      | succ n =>
        have hFirst : atHead? ⟨token :: tokens, rest⟩ = none := hLeft 0 (Nat.succ_pos n)
        rw [hFirst]
        exact ih.mpr ⟨n, fun m hm => hLeft (m + 1) (Nat.succ_lt_succ hm), hHead⟩

/-- A line without the keyword has no header. -/
theorem find?_eq_none {line : TokenLine} (h : line.contains .structWord = false) :
    find? line = none := by
  obtain ⟨tokens, rest⟩ := line
  simp only [find?]
  induction tokens with
  | nil => rfl
  | cons token tokens ih =>
    simp only [TokenLine.contains, List.any_cons, Bool.or_eq_false_iff,
      decide_eq_false_iff_not] at h ih
    rw [search, atHead?_eq_none h.1]
    exact ih h.2

theorem find?_ofText_of_lexemes {t keyword name colon base brace : Text}
    (h : t.lexemes = [(.structWord, keyword), (.ident, name), (.colon, colon), (.ident, base),
      (.braceOpen, brace)]) :
    find? (TokenLine.ofText t) = some ⟨name, some base, []⟩ := by
  have hRest := (TokenLine.isGap_of_mem_ofText t).1
  simp only [Text.lexemes, TokenLine.lexemes] at h
  generalize TokenLine.ofText t = line at h hRest ⊢
  obtain ⟨tokens, rest⟩ := line
  simp only [List.map_eq_cons_iff, List.map_eq_nil_iff, Prod.mk.injEq] at h
  obtain ⟨⟨_, _, _⟩, _, rfl, ⟨rfl, rfl⟩, ⟨_, _, _⟩, _, rfl, ⟨rfl, rfl⟩, ⟨_, _, _⟩, _, rfl,
    ⟨rfl, rfl⟩, ⟨_, _, _⟩, _, rfl, ⟨rfl, rfl⟩, ⟨_, _, _⟩, _, rfl, ⟨rfl, rfl⟩, rfl⟩ := h
  have hBody : Text.trim rest = [] :=
    Text.trim_eq_nil fun c hc => isBlank_of_isGap (hRest c hc)
  simp [find?, search, atHead?, TokenLine.text, hBody]

theorem words_of_atHead? {line : TokenLine} {header : Header} (h : atHead? line = some header) :
    (∃ token ∈ line.tokens, token.kind = .ident ∧ token.lexeme = header.name) ∧
      ∀ base ∈ header.base?, ∃ token ∈ line.tokens, token.kind = .ident ∧ token.lexeme = base := by
  obtain ⟨tokens, rest⟩ := line
  unfold atHead? at h
  dsimp only at h
  split at h
  case h_5 => cases h
  all_goals
    cases h
    simp

/-- The name and the base of a header are identifiers of its line. -/
theorem words_of_find? {line : TokenLine} {header : Header} (h : find? line = some header) :
    (∃ token ∈ line.tokens, token.kind = .ident ∧ token.lexeme = header.name) ∧
      ∀ base ∈ header.base?, ∃ token ∈ line.tokens, token.kind = .ident ∧ token.lexeme = base := by
  obtain ⟨tokens, rest⟩ := line
  simp only [find?] at h
  induction tokens with
  | nil => cases h
  | cons token tokens ih =>
    rw [search] at h
    split at h
    · next hFound =>
      cases h
      exact words_of_atHead? hFound
    · obtain ⟨⟨u, hu, hName⟩, hBase⟩ := ih h
      refine ⟨⟨u, List.mem_cons_of_mem _ hu, hName⟩, fun base hb => ?_⟩
      obtain ⟨v, hv, hEq⟩ := hBase base hb
      exact ⟨v, List.mem_cons_of_mem _ hv, hEq⟩

theorem body_isInfix_of_atHead? {line : TokenLine} {header : Header}
    (h : atHead? line = some header) : header.body <:+: line.text := by
  obtain ⟨tokens, rest⟩ := line
  unfold atHead? at h
  dsimp only at h
  split at h
  case h_5 => cases h
  all_goals cases h
  case h_1 =>
    exact (Text.trim_isInfix _).trans (TokenLine.text_isSuffix [_, _, _, _, _] _ rest).isInfix
  case h_3 => exact (Text.trim_isInfix _).trans (TokenLine.text_isSuffix [_, _, _] _ rest).isInfix
  case h_2 | h_4 => exact List.nil_infix

/-- The body of a header is a part of its line. -/
theorem body_isInfix_of_find? {line : TokenLine} {header : Header} (h : find? line = some header) :
    header.body <:+: line.text := by
  obtain ⟨tokens, rest⟩ := line
  simp only [find?] at h
  induction tokens with
  | nil => cases h
  | cons token tokens ih =>
    rw [search] at h
    split at h
    · next hFound =>
      cases h
      exact body_isInfix_of_atHead? hFound
    · exact (ih h).trans (TokenLine.text_isSuffix [token] tokens rest).isInfix

end Header

end NodeScaffold
