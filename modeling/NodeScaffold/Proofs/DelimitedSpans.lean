import NodeScaffold.Proofs.TokenSpans

/-! # Spans around a delimiter

A delimiter ends every lexeme before it and starts none but its own. So the spans of a line are those
of the text before the delimiter, one for the delimiter itself unless it is skipped, and those of the
text behind it, moved by the bytes in front of them. A line that is cut just after a mark keeps
exactly the spans up to there. -/
namespace NodeScaffold
set_option autoImplicit false

/-- The marks that no other character can extend; a colon is not among them, since a second one may
follow it. -/
def Rule.marks : Text := ";\x7b\x7d(),<>*&="

/-- A span of a text that stands behind the given number of bytes. -/
def Span.shift (bytes : Nat) (span : Span) : Span :=
  { span with start := bytes + span.start, stop := bytes + span.stop }

theorem Rule.isMark_of_mem_marks {c : Char} (h : c ∈ marks) : isMark c :=
  List.all_eq_true.mp (by with_unfolding_all decide : marks.all isMark) c h

theorem markKind_of_isMark {c : Char} (h : isMark c) : markKind c ≠ .unknown := by
  simp only [isMark, Bool.and_eq_true, decide_eq_true_eq] at h
  exact h.1

namespace TokenLine

theorem spansFrom_add (bytes offset : Nat) (tokens : List Token) :
    spansFrom (bytes + offset) tokens = (spansFrom offset tokens).map (Span.shift bytes) := by
  induction tokens generalizing offset with
  | nil => rfl
  | cons token tokens ih => simp [spansFrom, Span.shift, ← ih, Nat.add_assoc]

/-- Gaps in front of a text move its spans and do nothing else. -/
theorem spansFrom_ofText_gaps_append {gap : Text} (h : ∀ c ∈ gap, isGap c) (offset : Nat)
    (t : Text) :
    spansFrom offset (ofText (gap ++ t)).tokens =
      spansFrom (offset + gap.byteSize) (ofText t).tokens := by
  have hTake : (gap ++ t).takeWhile isGap = gap ++ t.takeWhile isGap :=
    List.takeWhile_append_of_pos h
  have hDrop : (gap ++ t).dropWhile isGap = t.dropWhile isGap := List.dropWhile_append_of_pos h
  cases hRest : t.dropWhile isGap with
  | nil =>
    rw [ofText_of_dropWhile_eq_nil (hDrop.trans hRest), ofText_of_dropWhile_eq_nil hRest]
    rfl
  | cons c following =>
    rw [ofText_of_dropWhile_eq_cons (hDrop.trans hRest), ofText_of_dropWhile_eq_cons hRest, hTake]
    simp [spansFrom, Nat.add_assoc]

theorem byteSize_text_tokens (t : Text) :
    (text ⟨(ofText t).tokens, []⟩).byteSize + (ofText t).rest.byteSize = t.byteSize := by
  rw [← Text.byteSize_append]
  congr 1
  simpa [text] using text_ofText t

theorem spans_ofText_append_gap {c : Char} (h : isGap c) (t u : Text) :
    (ofText (t ++ c :: u)).spans =
      (ofText t).spans ++ (ofText u).spans.map (Span.shift (t ++ [c]).byteSize) := by
  have hGaps : ∀ d ∈ (ofText t).rest ++ [c], isGap d := by
    rw [List.forall_mem_append]
    exact ⟨(isGap_of_mem_ofText t).1, by simpa using h⟩
  have hOffset : (text ⟨(ofText t).tokens, []⟩).byteSize + Text.byteSize ((ofText t).rest ++ [c]) =
      (t ++ [c]).byteSize := by
    rw [Text.byteSize_append, Text.byteSize_append, ← Nat.add_assoc, byteSize_text_tokens]
  -- what is left of the first text joins the delimiter in the gap in front of the second
  have hRest : (ofText t).rest ++ c :: u = ((ofText t).rest ++ [c]) ++ u := by simp
  rw [spans, ofText_append_cons (plain_of_isDelimiter (isDelimiter_of_isGap h)), spansFrom_append,
    hRest, spansFrom_ofText_gaps_append hGaps, Nat.zero_add, hOffset]
  exact congrArg (_ ++ ·) (spansFrom_add _ 0 _)

theorem spans_ofText_append_mark {c : Char} (h : isMark c) (t u : Text) :
    (ofText (t ++ c :: u)).spans =
      (ofText t).spans ++ ⟨markKind c, t.byteSize, (t ++ [c]).byteSize, [c]⟩ ::
        (ofText u).spans.map (Span.shift (t ++ [c]).byteSize) := by
  have hStop : (t ++ [c]).byteSize = t.byteSize + Text.byteSize [c] := Text.byteSize_append t [c]
  rw [spans, ofText_append_mark h, spansFrom_append, spansFrom, Nat.zero_add,
    byteSize_text_tokens, ← hStop]
  exact congrArg (_ ++ _ :: ·) (spansFrom_add _ 0 _)

theorem spans_ofText_concat_mark {c : Char} (h : isMark c) (t : Text) :
    (ofText (t ++ [c])).spans =
      (ofText t).spans ++ [⟨markKind c, t.byteSize, (t ++ [c]).byteSize, [c]⟩] := by
  have hNil : (ofText []).spans = [] := by
    rw [ofText_of_dropWhile_eq_nil rfl]
    rfl
  rw [spans_ofText_append_mark h, hNil, List.map_nil]

/-- A span of a mark tells where the mark stands. -/
theorem exists_cut_of_mark {t : Text} {span : Span} {c : Char} (h : span ∈ (ofText t).spans)
    (hMark : isMark c) (hKind : span.kind = markKind c) :
    ∃ before after, t = before ++ c :: after ∧
      span = ⟨markKind c, before.byteSize, (before ++ [c]).byteSize, [c]⟩ := by
  obtain ⟨before, after, hText, hStart, hStop, hMatch⟩ := (readByRules_ofText 0 t).exists_cut h
  have hKnown := markKind_of_isMark hMark
  have hLexeme : span.lexeme = [c] := by
    have hRule := hMatch.matched (hKind ▸ hKnown)
    rw [hKind] at hRule
    exact (TokenKind.matches_markKind hKnown).mp hRule
  refine ⟨before, after, by simpa [hLexeme] using hText, ?_⟩
  obtain ⟨kind, start, stop, lexeme⟩ := span
  dsimp only at hKind hLexeme hStart hStop
  subst hKind hLexeme hStart hStop
  simp

end TokenLine

/-- Reading a line goes on behind a delimiter as at the start of a line: the spans are those before
it, its own unless it is skipped, and those behind it, moved by the bytes up to it. So a line cut just
after a brace or a semicolon has the spans up to there, and what is cut off has the others. -/
theorem spans_ofText_delimited :
    (∀ (t u : Text), ∀ c ∈ Rule.skipped, (TokenLine.ofText (t ++ c :: u)).spans =
      (TokenLine.ofText t).spans ++
        (TokenLine.ofText u).spans.map (Span.shift (t ++ [c]).byteSize)) ∧
    (∀ (t u : Text), ∀ c ∈ Rule.marks, (markKind c).Matches [c] ∧
      (TokenLine.ofText (t ++ c :: u)).spans =
        (TokenLine.ofText t).spans ++ ⟨markKind c, t.byteSize, (t ++ [c]).byteSize, [c]⟩ ::
          (TokenLine.ofText u).spans.map (Span.shift (t ++ [c]).byteSize)) ∧
    ∀ (t : Text), ∀ span ∈ (TokenLine.ofText t).spans,
      span.kind = .braceOpen ∨ span.kind = .semicolon →
      ∃ upTo after, t = upTo ++ after ∧ upTo.byteSize = span.stop ∧
        (TokenLine.ofText upTo).spans.getLast? = some span ∧
        (TokenLine.ofText t).spans = (TokenLine.ofText upTo).spans ++
          (TokenLine.ofText after).spans.map (Span.shift upTo.byteSize) := by
  refine ⟨?_, ?_, ?_⟩
  · intro t u c hc
    exact TokenLine.spans_ofText_append_gap (Rule.mem_skipped.mp hc) t u
  · intro t u c hc
    have hMark := Rule.isMark_of_mem_marks hc
    exact ⟨(TokenKind.matches_markKind (markKind_of_isMark hMark)).mpr rfl,
      TokenLine.spans_ofText_append_mark hMark t u⟩
  · intro t span hSpan hKind
    have hCut : ∃ c, isMark c ∧ ∃ before after, t = before ++ c :: after ∧
        span = ⟨markKind c, before.byteSize, (before ++ [c]).byteSize, [c]⟩ := by
      rcases hKind with hKind | hKind
      · have hMark : isMark '\x7b' := by decide
        exact ⟨_, hMark, TokenLine.exists_cut_of_mark hSpan hMark hKind⟩
      · have hMark : isMark ';' := by decide
        exact ⟨_, hMark, TokenLine.exists_cut_of_mark hSpan hMark hKind⟩
    obtain ⟨c, hMark, before, after, rfl, rfl⟩ := hCut
    have hUpTo := TokenLine.spans_ofText_concat_mark hMark before
    refine ⟨before ++ [c], after, by simp, rfl, ?_, ?_⟩
    · rw [hUpTo, List.getLast?_concat]
    · rw [TokenLine.spans_ofText_append_mark hMark, hUpTo, List.append_assoc,
        List.singleton_append]

/-- Characters that are no token, a scope sign in front of the keyword, and a number with a quote. -/
def bracedLine : Text := "é::struct\x7b0x1\x27f;\t日"

theorem spans_ofText_delimited_bracedLine :
    '\x7b' ∈ Rule.marks ∧ '\t' ∈ Rule.skipped ∧
    (TokenLine.ofText bracedLine).spans =
      (TokenLine.ofText (Text.ofString "é::struct")).spans ++ ⟨.braceOpen, 10, 11, ['\x7b']⟩ ::
        (TokenLine.ofText (Text.ofString "0x1\x27f;\t日")).spans.map (Span.shift 11) ∧
    (TokenLine.ofText bracedLine).spans =
      (TokenLine.ofText (Text.ofString "é::struct\x7b0x1\x27f;")).spans ++
        (TokenLine.ofText (Text.ofString "日")).spans.map (Span.shift 18) ∧
    ⟨.semicolon, 16, 17, [';']⟩ ∈ (TokenLine.ofText bracedLine).spans ∧
    ∃ upTo after, bracedLine = upTo ++ after ∧ upTo.byteSize = 17 ∧
      (TokenLine.ofText upTo).spans.getLast? = some ⟨.semicolon, 16, 17, [';']⟩ ∧
      (TokenLine.ofText bracedLine).spans = (TokenLine.ofText upTo).spans ++
        (TokenLine.ofText after).spans.map (Span.shift upTo.byteSize) := by
  have hBrace : '\x7b' ∈ Rule.marks := by with_unfolding_all decide
  have hTab : '\t' ∈ Rule.skipped := by with_unfolding_all decide
  have hSpan : ⟨.semicolon, 16, 17, [';']⟩ ∈ (TokenLine.ofText bracedLine).spans := by
    decide +kernel
  have hAtBrace : bracedLine =
      Text.ofString "é::struct" ++ '\x7b' :: Text.ofString "0x1\x27f;\t日" := by
    with_unfolding_all rfl
  have hAtTab : bracedLine =
      Text.ofString "é::struct\x7b0x1\x27f;" ++ '\t' :: Text.ofString "日" := by
    with_unfolding_all rfl
  have hStart : Text.byteSize (Text.ofString "é::struct") = 10 := by with_unfolding_all rfl
  have hBraceStop : Text.byteSize (Text.ofString "é::struct" ++ ['\x7b']) = 11 := by
    with_unfolding_all rfl
  have hTabStop : Text.byteSize (Text.ofString "é::struct\x7b0x1\x27f;" ++ ['\t']) = 18 := by
    with_unfolding_all rfl
  have hMark := (spans_ofText_delimited.2.1 "é::struct" "0x1\x27f;\t日" '\x7b' hBrace).2
  have hGap := spans_ofText_delimited.1 "é::struct\x7b0x1\x27f;" "日" '\t' hTab
  rw [← hAtBrace, hStart, hBraceStop] at hMark
  rw [← hAtTab, hTabStop] at hGap
  exact ⟨hBrace, hTab, hMark, hGap, hSpan,
    spans_ofText_delimited.2.2 bracedLine _ hSpan (.inr rfl)⟩

end NodeScaffold
