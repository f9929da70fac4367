import NodeScaffold.Proofs.Recognition
import NodeScaffold.Proofs.TokenSpans

/-! # Field lines, by bytes and by lexemes

The type of a field is cut out of its line up to the byte at which the name starts. Blanks are more
than the gaps of a line, since some of them are unknown tokens, but both are gone from a type in the
end: the cut gives the lexemes before the name, and where gaps stand on the line does not matter. -/
namespace NodeScaffold
set_option autoImplicit false

namespace FieldDecl

/-- A field cut out of a line by the offsets of its spans. -/
def CutFrom (t : Text) (field : FieldDecl) : Prop :=
  ∃ earlier name semicolon written following, earlier ≠ [] ∧
    (TokenLine.ofText t).spans = earlier ++ [name, semicolon] ∧
    name.kind = .ident ∧ semicolon.kind = .semicolon ∧
    (∀ span ∈ (TokenLine.ofText t).spans, span.kind ≠ .parenOpen) ∧
    t = written ++ following ∧ written.byteSize = name.start ∧
    field = declare name.lexeme written.trim

/-- A field put together from lexemes. -/
def SpelledBy (lexemes : List (TokenKind × Text)) (field : FieldDecl) : Prop :=
  ∃ before name semicolon, before ≠ [] ∧
    lexemes = before ++ [(.ident, name), (.semicolon, semicolon)] ∧
    (∀ lexeme ∈ lexemes, lexeme.1 ≠ .parenOpen) ∧
    field.name = name ∧ field.type = Text.withoutBlanks (Text.concat (before.map Prod.snd))

end FieldDecl

/-- Of two starts of a text, the one with fewer bytes is a start of the other. -/
theorem Text.exists_eq_append_of_byteSize_le {first last first' last' : Text}
    (h : first ++ last = first' ++ last') (hSize : first.byteSize ≤ first'.byteSize) :
    ∃ part, first' = first ++ part := by
  obtain ⟨part, rfl, -⟩ | ⟨part, rfl, -⟩ := List.append_eq_append_iff.mp h
  · exact ⟨part, rfl⟩
  · cases part with
    | nil => exact ⟨[], by simp⟩
    | cons c part =>
      have hPart := byteSize_pos (List.cons_ne_nil c part)
      rw [byteSize_append] at hSize
      omega

/-- Starts of a text with the same number of bytes are the same. -/
theorem Text.eq_of_byteSize_eq {first last first' last' : Text}
    (h : first ++ last = first' ++ last') (hSize : first.byteSize = first'.byteSize) :
    first = first' := by
  obtain ⟨part, rfl⟩ := exists_eq_append_of_byteSize_le h (Nat.le_of_eq hSize)
  obtain ⟨part', hPart⟩ := exists_eq_append_of_byteSize_le h.symm (Nat.le_of_eq hSize.symm)
  have hLength := congrArg List.length hPart
  simp only [List.length_append] at hLength
  have hNil : part = [] := List.length_eq_zero_iff.mp (by omega)
  rw [hNil, List.append_nil]

namespace TokenLine

theorem exists_of_spansFrom_eq_append {offset : Nat} {tokens : List Token}
    {earlier later : List Span} (h : spansFrom offset tokens = earlier ++ later) :
    ∃ first last, tokens = first ++ last ∧ spansFrom offset first = earlier ∧
      spansFrom (offset + (text ⟨first, []⟩).byteSize) last = later := by
  induction earlier generalizing offset tokens with
  | nil => exact ⟨[], tokens, rfl, rfl, h⟩
  | cons span earlier ih =>
    cases tokens with
    | nil => cases h
    | cons token tokens =>
      rw [spansFrom, List.cons_append, List.cons.injEq] at h
      obtain ⟨rfl, hTail⟩ := h
      obtain ⟨first, last, rfl, rfl, rfl⟩ := ih hTail
      refine ⟨token :: first, last, rfl, rfl, ?_⟩
      rw [text_cons, Token.text, Text.byteSize_append, Text.byteSize_append, ← Nat.add_assoc,
        ← Nat.add_assoc]

theorem forall_kind_ne_iff (line : TokenLine) (kind : TokenKind) :
    (∀ span ∈ line.spans, span.kind ≠ kind) ↔ line.contains kind = false := by
  have hKinds : line.spans.map Span.kind = line.tokens.map Token.kind := by
    have hPairs := congrArg (List.map Prod.fst) (map_spansFrom 0 line.tokens)
    rwa [List.map_map, List.map_map] at hPairs
  have hMem : kind ∉ line.spans.map Span.kind ↔ kind ∉ line.tokens.map Token.kind := by rw [hKinds]
  simpa [contains] using hMem

end TokenLine

namespace FieldDecl
variable {t : Text} {field : FieldDecl}

theorem ofLine?_eq_some_iff_cutFrom :
    ofLine? (TokenLine.ofText t) = some field ↔ CutFrom t field := by
  have hText := TokenLine.text_ofText t
  rw [ofLine?_eq_some_iff, CutFrom]
  simp only [TokenLine.forall_kind_ne_iff]
  generalize TokenLine.ofText t = line at hText ⊢
  obtain ⟨tokens, rest⟩ := line
  constructor
  · rintro ⟨before, gap, name, gap', semicolon, hNonempty, hTokens, hParen, rfl⟩
    dsimp only at hTokens
    subst hTokens
    refine ⟨_, _, _, TokenLine.text ⟨before, gap⟩, name ++ gap' ++ semicolon ++ rest, ?_,
      TokenLine.spansFrom_append 0 before _, rfl, rfl, hParen, ?_, ?_, rfl⟩
    · cases before with
      | nil => exact absurd rfl hNonempty
      | cons token before => simp [TokenLine.spansFrom]
    · simp [← hText, TokenLine.text, Token.text]
    · simp [TokenLine.text]
  · rintro ⟨earlier, name, semicolon, written, following, hNonempty, hSpans, hName, hSemicolon,
      hParen, hCut, hSize, rfl⟩
    obtain ⟨before, last, hTokens, rfl, hLast⟩ := TokenLine.exists_of_spansFrom_eq_append hSpans
    dsimp only at hTokens
    subst hTokens
    obtain _ | ⟨⟨gap, kind, word⟩, _ | ⟨⟨gap', kind', mark⟩, _ | ⟨_, _⟩⟩⟩ := last
    · cases hLast
    · cases hLast
    · cases hLast
      cases hName
      cases hSemicolon
      have hWhole : written ++ following =
          TokenLine.text ⟨before, gap⟩ ++ (word ++ gap' ++ mark ++ rest) := by
        rw [← hCut, ← hText]
        simp [TokenLine.text, Token.text]
      have hWritten : written = TokenLine.text ⟨before, gap⟩ := by
        apply Text.eq_of_byteSize_eq hWhole
        rw [hSize]
        simp [TokenLine.text]
      refine ⟨before, gap, word, gap', mark, ?_, rfl, hParen, by rw [hWritten]⟩
      rintro rfl
      exact hNonempty rfl
    · cases hLast

theorem ofLine?_eq_some_iff_spelledBy :
    ofLine? (TokenLine.ofText t) = some field ↔ SpelledBy t.lexemes field := by
  rw [ofLine?_ofText_eq_some_iff, SpelledBy]
  constructor
  · rintro ⟨before, name, semicolon, hNonempty, hLexemes, hParen, rfl⟩
    refine ⟨before, name, semicolon, hNonempty, hLexemes, ?_, rfl, rfl⟩
    rw [hLexemes, List.forall_mem_append]
    exact ⟨hParen, by simp⟩
  · rintro ⟨before, name, semicolon, hNonempty, hLexemes, hParen, hName, hType⟩
    refine ⟨before, name, semicolon, hNonempty, hLexemes, ?_, ?_⟩
    · rw [hLexemes, List.forall_mem_append] at hParen
      exact hParen.1
    · obtain ⟨_, _⟩ := field
      cases hName
      cases hType
      rfl

end FieldDecl

/-- The field that a line declares is the one cut out of it by bytes, and the one that its lexemes
spell: a type, a name and a semicolon without a parenthesis anywhere. So lines with the same kinds
and lexemes declare the same field, of the same kind. -/
theorem FieldDecl.ofLine?_cut_spelled :
    (∀ (t : Text) (field : FieldDecl),
      ofLine? (TokenLine.ofText t) = some field ↔ CutFrom t field) ∧
    (∀ (t : Text) (field : FieldDecl),
      ofLine? (TokenLine.ofText t) = some field ↔ SpelledBy t.lexemes field) ∧
    ∀ (conv : Conventions) (t u : Text), t.lexemes = u.lexemes →
      ofLine? (TokenLine.ofText t) = ofLine? (TokenLine.ofText u) ∧
      (ofLine? (TokenLine.ofText t)).map (FieldDecl.kind · conv) =
        (ofLine? (TokenLine.ofText u)).map (FieldDecl.kind · conv) := by
  refine ⟨fun t field => ofLine?_eq_some_iff_cutFrom,
    fun t field => ofLine?_eq_some_iff_spelledBy, ?_⟩
  intro conv t u hLexemes
  have hSame : ofLine? (TokenLine.ofText t) = ofLine? (TokenLine.ofText u) := by
    apply Option.ext
    intro field
    rw [ofLine?_eq_some_iff_spelledBy, ofLine?_eq_some_iff_spelledBy, hLexemes]
  exact ⟨hSame, by rw [hSame]⟩

/-- A type with a blank that is an unknown token, and gaps wherever they may stand. -/
def wideField : Text := "Separated\xa0List < Expr::Node >\t* ranks ;"

def narrowField : Text := "Separated\xa0List<Expr::Node>*ranks;"

theorem FieldDecl.ofLine?_cut_spelled_wideField :
    wideField.lexemes = narrowField.lexemes ∧
    ofLine? (TokenLine.ofText wideField) =
      some ⟨Text.ofString "ranks", Text.ofString "SeparatedList<Expr::Node>*"⟩ ∧
    CutFrom wideField ⟨Text.ofString "ranks", Text.ofString "SeparatedList<Expr::Node>*"⟩ ∧
    ofLine? (TokenLine.ofText wideField) = ofLine? (TokenLine.ofText narrowField) ∧
    (ofLine? (TokenLine.ofText wideField)).map (FieldDecl.kind · .standard) =
      (ofLine? (TokenLine.ofText narrowField)).map (FieldDecl.kind · .standard) := by
  have hLexemes : wideField.lexemes = narrowField.lexemes := by decide +kernel
  have hField : ofLine? (TokenLine.ofText wideField) =
      some ⟨Text.ofString "ranks", Text.ofString "SeparatedList<Expr::Node>*"⟩ := by
    decide +kernel
  refine ⟨hLexemes, hField, (ofLine?_cut_spelled.1 wideField _).mp hField, ?_⟩
  exact ofLine?_cut_spelled.2.2 .standard wideField narrowField hLexemes

end NodeScaffold
