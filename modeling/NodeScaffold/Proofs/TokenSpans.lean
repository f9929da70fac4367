import NodeScaffold.Proofs.Delimiters
import NodeScaffold.Proofs.TokenRules
import NodeScaffold.Token.Dump

/-! # Spans of a line

The rules of the tokens tell where each span of a line starts and stops. Between the spans there is
nothing but what the rules skip, so a line can be spelled out from its gaps and lexemes; and since
every lexeme is read again when it stands alone, the lexemes can be written with single spaces
between them and nothing changes. -/
namespace NodeScaffold
set_option autoImplicit false

/-- The spans of a text that stands at an offset, by the rules alone: skipped characters, the
longest match behind them, and so on to the end. -/
inductive ReadByRules : Nat → Text → List Span → Prop
  | done {offset : Nat} {gap : Text} (hGap : ∀ c ∈ gap, c ∈ Rule.skipped) :
      ReadByRules offset gap []
  | token {offset : Nat} {gap lexeme following : Text} {kind : TokenKind} {spans : List Span}
      (hGap : ∀ c ∈ gap, c ∈ Rule.skipped) (hMatch : LongestMatch kind lexeme following)
      (hLater : ReadByRules (offset + gap.byteSize + lexeme.byteSize) following spans) :
      ReadByRules offset (gap ++ lexeme ++ following)
        (⟨kind, offset + gap.byteSize, offset + gap.byteSize + lexeme.byteSize, lexeme⟩ :: spans)

theorem LongestMatch.lexeme_ne_nil {kind : TokenKind} {lexeme following : Text}
    (h : LongestMatch kind lexeme following) : lexeme ≠ [] := by
  rintro rfl
  by_cases hKind : kind = .unknown
  · simpa using (h.alone hKind).1
  · cases TokenKind.shape_of_matches (h.matched hKind) with
    | word hWord => cases hWord
    | keyword hText => cases (hText ▸ isWord_keyword : isWord [])

theorem cases_of_append_cons_eq {before after t u : Text} {c : Char}
    (h : before ++ c :: after = t ++ u) :
    (∃ rest, t = before ++ c :: rest) ∨ ∃ earlier, before = t ++ earlier ∧
      u = earlier ++ c :: after := by
  obtain ⟨part, rfl, hPart⟩ | ⟨earlier, rfl, hRest⟩ := List.append_eq_append_iff.mp h
  · cases part with
    | nil => exact .inr ⟨[], by simp, hPart.symm⟩
    | cons d part =>
      obtain ⟨rfl, -⟩ := List.cons.inj hPart
      exact .inl ⟨part, rfl⟩
  · exact .inr ⟨earlier, rfl, hRest⟩

theorem Text.byteSize_pos {t : Text} (h : t ≠ []) : 0 < t.byteSize := by
  cases t with
  | nil => exact absurd rfl h
  | cons c t =>
    rw [byteSize_cons]
    exact Nat.add_pos_left c.utf8Size_pos _

namespace TokenLine

theorem readByRules_ofText (offset : Nat) (t : Text) :
    ReadByRules offset t (spansFrom offset (ofText t).tokens) := by
  fun_induction ofText t generalizing offset with
  | case1 t h =>
    apply ReadByRules.done
    intro c hc
    exact Rule.mem_skipped.mpr (List.dropWhile_eq_nil_iff.mp h c hc)
  | case2 t c following h lexed line ih =>
    have hText : t.takeWhile isGap ++ c :: lexed.more ++ lexed.rest = t := by
      rw [List.append_assoc, List.cons_append, Lexed.more_append_rest, ← h,
        List.takeWhile_append_dropWhile]
    have hGap : ∀ d ∈ t.takeWhile isGap, d ∈ Rule.skipped := fun d hd =>
      Rule.mem_skipped.mpr (List.mem_takeWhile_imp hd)
    have hMatch : LongestMatch lexed.kind (c :: lexed.more) lexed.rest :=
      Lexed.longestMatch_ofText (isGap_of_dropWhile_eq_cons h)
    have hRead := ReadByRules.token hGap hMatch
      (ih (offset + Text.byteSize (t.takeWhile isGap) + Text.byteSize (c :: lexed.more)))
    rwa [hText] at hRead

end TokenLine

namespace ReadByRules
variable {offset : Nat} {t : Text} {spans : List Span}

/-- There is one way to read a text by the rules, and the lexer goes it. -/
theorem spans_eq (h : ReadByRules offset t spans) :
    spans = TokenLine.spansFrom offset (TokenLine.ofText t).tokens := by
  induction h with
  | done hGap =>
    rw [TokenLine.ofText_of_dropWhile_eq_nil]
    · rfl
    · exact List.dropWhile_eq_nil_iff.mpr fun c hc => Rule.mem_skipped.mp (hGap c hc)
  | @token offset gap lexeme following kind spans hGap hMatch _ ih =>
    obtain ⟨c, more, rfl⟩ := List.exists_cons_of_ne_nil hMatch.lexeme_ne_nil
    have hGaps : ∀ d ∈ gap, isGap d := fun d hd => Rule.mem_skipped.mp (hGap d hd)
    have hc : isGap c = false := by simpa [Rule.mem_skipped] using hMatch.starts c rfl
    have hDrop : (gap ++ c :: more ++ following).dropWhile isGap = c :: (more ++ following) := by
      rw [List.append_assoc, List.dropWhile_append_of_pos hGaps, List.cons_append,
        List.dropWhile_cons_of_neg (by simp [hc])]
    have hTake : (gap ++ c :: more ++ following).takeWhile isGap = gap := by
      rw [List.append_assoc, List.takeWhile_append_of_pos hGaps, List.cons_append,
        List.takeWhile_cons_of_neg (by simp [hc]), List.append_nil]
    rw [TokenLine.ofText_of_dropWhile_eq_cons hDrop, hTake, hMatch.ofText_eq, ih]
    rfl

theorem offset_le_start (h : ReadByRules offset t spans) :
    ∀ span ∈ spans, offset ≤ span.start := by
  induction h with
  | done => simp
  | token _ _ _ ih =>
    rw [List.forall_mem_cons]
    refine ⟨Nat.le_add_right _ _, fun span hSpan => ?_⟩
    have hLater := ih span hSpan
    omega

theorem start_lt_stop (h : ReadByRules offset t spans) :
    ∀ span ∈ spans, span.start < span.stop := by
  induction h with
  | done => simp
  | token _ hMatch _ ih =>
    rw [List.forall_mem_cons]
    exact ⟨Nat.lt_add_of_pos_right (Text.byteSize_pos hMatch.lexeme_ne_nil), ih⟩

theorem pairwise_stop_le_start (h : ReadByRules offset t spans) :
    spans.Pairwise fun first later => first.stop ≤ later.start := by
  induction h with
  | done => exact List.Pairwise.nil
  | token _ _ hLater ih => exact List.pairwise_cons.mpr ⟨hLater.offset_le_start, ih⟩

/-- A span tells where its lexeme stands, in bytes. -/
theorem exists_cut (h : ReadByRules offset t spans) {span : Span} (hSpan : span ∈ spans) :
    ∃ before after, t = before ++ span.lexeme ++ after ∧
      span.start = offset + before.byteSize ∧
      span.stop = offset + (before ++ span.lexeme).byteSize ∧
      LongestMatch span.kind span.lexeme after := by
  induction h with
  | done => cases hSpan
  | @token offset gap lexeme following kind spans _ hMatch _ ih =>
    rcases List.mem_cons.mp hSpan with rfl | hSpan
    · exact ⟨gap, following, rfl, rfl, by simp [Nat.add_assoc], hMatch⟩
    · obtain ⟨before, after, rfl, hStart, hStop, hLexeme⟩ := ih hSpan
      refine ⟨gap ++ lexeme ++ before, after, by simp, ?_, ?_, hLexeme⟩
      · rw [hStart]
        simp [Nat.add_assoc]
      · rw [hStop]
        simp [Nat.add_assoc]

/-- A character that no span covers is one that the rules skip. -/
theorem mem_skipped_of_uncovered (h : ReadByRules offset t spans) {before after : Text} {c : Char}
    (hText : before ++ c :: after = t)
    (hUncovered : ∀ span ∈ spans,
      ¬ (span.start ≤ offset + before.byteSize ∧ offset + before.byteSize < span.stop)) :
    c ∈ Rule.skipped := by
  induction h generalizing before with
  | done hGap =>
    apply hGap
    simp [← hText]
  | @token offset gap lexeme following kind spans hGap _ _ ih =>
    obtain ⟨hFirst, hLater⟩ := List.forall_mem_cons.mp hUncovered
    obtain ⟨rest, hToken⟩ | ⟨earlier, hBefore, hFollowing⟩ := cases_of_append_cons_eq hText
    · obtain ⟨rest', rfl⟩ | ⟨earlier, hBefore, hLexeme⟩ := cases_of_append_cons_eq hToken.symm
      · apply hGap
        simp
      · -- the span of the lexeme covers the character
        have hPart : Text.byteSize lexeme = Text.byteSize earlier + Text.byteSize (c :: rest) := by
          rw [hLexeme, Text.byteSize_append]
        have hSize : Text.byteSize before = Text.byteSize gap + Text.byteSize earlier := by
          rw [hBefore, Text.byteSize_append]
        have hChar := Text.byteSize_pos (List.cons_ne_nil c rest)
        dsimp only at hFirst
        omega
    · apply ih hFollowing.symm
      intro span hSpan hCovered
      apply hLater span hSpan
      rw [hBefore, Text.byteSize_append, Text.byteSize_append]
      omega

/-- The gaps and lexemes in order spell the text. -/
theorem exists_gaps (h : ReadByRules offset t spans) : ∃ gaps rest,
    gaps.length = spans.length ∧ (∀ gap ∈ rest :: gaps, ∀ c ∈ gap, c ∈ Rule.skipped) ∧
      t = (List.zipWith (fun gap span => gap ++ Span.lexeme span) gaps spans).flatten ++ rest := by
  induction h with
  | @done offset gap hGap => exact ⟨[], gap, rfl, by simpa using hGap, rfl⟩
  | @token offset gap lexeme following kind spans hGap _ _ ih =>
    obtain ⟨gaps, rest, hLength, hGaps, rfl⟩ := ih
    obtain ⟨hRest, hGaps⟩ := List.forall_mem_cons.mp hGaps
    refine ⟨gap :: gaps, rest, congrArg (· + 1) hLength, ?_, by simp⟩
    exact List.forall_mem_cons.mpr ⟨hRest, List.forall_mem_cons.mpr ⟨hGap, hGaps⟩⟩

end ReadByRules

/-! ## Writing the lexemes again -/

/-- A lexeme that stands alone is read as it was. -/
theorem Text.lexemes_lexeme {t lexeme : Text} {kind : TokenKind} (h : (kind, lexeme) ∈ lexemes t) :
    lexemes lexeme = [(kind, lexeme)] := by
  simp only [lexemes, TokenLine.lexemes] at h
  fun_induction TokenLine.ofText t with
  | case1 => cases h
  | case2 t c following hCons lexed line ih =>
    rcases List.mem_cons.mp h with h | h
    · cases h
      have hAlone : Lexed.ofText c lexed.more = ⟨lexed.kind, lexed.more, []⟩ := by
        have hCut := Lexed.ofText_cut (List.nil_prefix (l := lexed.rest))
        rwa [List.append_nil] at hCut
      rw [lexemes_cons (TokenLine.isGap_of_dropWhile_eq_cons hCons), hAlone, lexemes_nil]
    · exact ih h

theorem Text.lexemes_join {items : List (TokenKind × Text)}
    (h : ∀ item ∈ items, lexemes item.2 = [item]) :
    lexemes (join [' '] (items.map Prod.snd)) = items := by
  induction items with
  | nil => exact lexemes_nil
  | cons item items ih =>
    obtain ⟨hItem, hItems⟩ := List.forall_mem_cons.mp h
    cases items with
    | nil => simpa [join, List.intercalate] using hItem
    | cons next items =>
      rw [List.map_cons, List.map_cons, join_cons_cons, lexemes_append_gap (by decide), hItem,
        ← List.map_cons, ih hItems]
      rfl

theorem TokenLine.map_spansFrom (offset : Nat) (tokens : List Token) :
    (spansFrom offset tokens).map (fun span => (span.kind, span.lexeme)) =
      tokens.map fun token => (token.kind, token.lexeme) := by
  induction tokens generalizing offset with
  | nil => rfl
  | cons token tokens ih => exact congrArg (_ :: ·) (ih _)

/-- The spans of a line are those that the rules give. Each holds a part of the line, at its place in
bytes, that is the longest match there; they do not overlap, leave out skipped characters alone, and
with these spell the line. Written with single spaces between them the lexemes stay what they are. -/
theorem spans_ofText_lossless (t : Text) :
    (∀ spans, ReadByRules 0 t spans ↔ spans = (TokenLine.ofText t).spans) ∧
    (∀ span ∈ (TokenLine.ofText t).spans, span.start < span.stop ∧
      ∃ before after, t = before ++ span.lexeme ++ after ∧
        span.start = before.byteSize ∧ span.stop = (before ++ span.lexeme).byteSize ∧
        LongestMatch span.kind span.lexeme after) ∧
    ((TokenLine.ofText t).spans.Pairwise fun first later => first.stop ≤ later.start) ∧
    (∀ (before : Text) (c : Char) (after : Text), before ++ c :: after = t →
      (∀ span ∈ (TokenLine.ofText t).spans,
        ¬ (span.start ≤ before.byteSize ∧ before.byteSize < span.stop)) →
      c ∈ Rule.skipped) ∧
    (∃ gaps rest, gaps.length = (TokenLine.ofText t).spans.length ∧
      (∀ gap ∈ rest :: gaps, ∀ c ∈ gap, c ∈ Rule.skipped) ∧
      t = (List.zipWith (fun gap span => gap ++ Span.lexeme span) gaps
        (TokenLine.ofText t).spans).flatten ++ rest) ∧
    (TokenLine.ofText (Text.join [' '] ((TokenLine.ofText t).spans.map Span.lexeme))).spans.map
        (fun span => (span.kind, span.lexeme)) =
      (TokenLine.ofText t).spans.map fun span => (span.kind, span.lexeme) := by
  have hRead : ReadByRules 0 t (TokenLine.ofText t).spans := TokenLine.readByRules_ofText 0 t
  refine ⟨fun spans => ⟨ReadByRules.spans_eq, fun h => h ▸ hRead⟩, ?_,
    hRead.pairwise_stop_le_start, ?_, hRead.exists_gaps, ?_⟩
  · intro span hSpan
    obtain ⟨before, after, hText, hStart, hStop, hMatch⟩ := hRead.exists_cut hSpan
    rw [Nat.zero_add] at hStart hStop
    exact ⟨hRead.start_lt_stop span hSpan, before, after, hText, hStart, hStop, hMatch⟩
  · intro before c after hText hUncovered
    apply hRead.mem_skipped_of_uncovered hText
    simpa using hUncovered
  · have hLexemes : (TokenLine.ofText t).spans.map Span.lexeme = t.lexemes.map Prod.snd := by
      rw [Text.lexemes, TokenLine.lexemes, ← TokenLine.map_spansFrom 0, List.map_map]
      rfl
    rw [hLexemes, TokenLine.spans, TokenLine.spans, TokenLine.map_spansFrom,
      TokenLine.map_spansFrom]
    exact Text.lexemes_join fun item => Text.lexemes_lexeme

/-- A word that starts like the keyword, colons in a row, characters that are no token, a number
with all its signs, and the keyword. -/
def mixedLine : Text := "structs:::é\x0b0x1F\x272. struct"

theorem spans_ofText_lossless_mixedLine :
    (TokenLine.ofText mixedLine).spans =
      [⟨.ident, 0, 7, "structs"⟩, ⟨.colonColon, 7, 9, "::"⟩, ⟨.colon, 9, 10, ":"⟩,
        ⟨.unknown, 10, 12, "é"⟩, ⟨.unknown, 12, 13, "\x0b"⟩, ⟨.number, 13, 20, "0x1F\x272."⟩,
        ⟨.structWord, 21, 27, "struct"⟩] ∧
    ∃ before after, mixedLine = before ++ Text.ofString "0x1F\x272." ++ after ∧
      13 = before.byteSize ∧ 20 = (before ++ Text.ofString "0x1F\x272.").byteSize ∧
      LongestMatch .number (Text.ofString "0x1F\x272.") after := by
  have hSpans : (TokenLine.ofText mixedLine).spans =
      [⟨.ident, 0, 7, "structs"⟩, ⟨.colonColon, 7, 9, "::"⟩, ⟨.colon, 9, 10, ":"⟩,
        ⟨.unknown, 10, 12, "é"⟩, ⟨.unknown, 12, 13, "\x0b"⟩, ⟨.number, 13, 20, "0x1F\x272."⟩,
        ⟨.structWord, 21, 27, "struct"⟩] := by
    decide +kernel
  refine ⟨hSpans, ?_⟩
  have hNumber := (spans_ofText_lossless mixedLine).2.1 ⟨.number, 13, 20, "0x1F\x272."⟩
    (by rw [hSpans]; simp)
  exact hNumber.2

end NodeScaffold
