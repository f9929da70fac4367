import NodeScaffold.Proofs.Lexing
import NodeScaffold.Token.Dump

/-! # Lines cut after a token

A lexeme is as long as it can be, and to see where it ends one character more is enough. So a line
that is cut after one of its tokens has exactly the tokens up to there, at the same offsets. -/
namespace NodeScaffold
set_option autoImplicit false

theorem takeWhile_append_of_isPrefix {p : Char → Bool} {t u : Text} (h : u <+: t.dropWhile p) :
    (t.takeWhile p ++ u).takeWhile p = t.takeWhile p ∧ (t.takeWhile p ++ u).dropWhile p = u := by
  have hAll : ∀ c ∈ t.takeWhile p, p c := fun c hc => List.mem_takeWhile_imp hc
  rw [List.takeWhile_append_of_pos hAll, List.dropWhile_append_of_pos hAll]
  cases u with
  | nil => simp
  | cons c u =>
    obtain ⟨v, hv⟩ := h
    have hNot := List.head?_dropWhile_not p t
    rw [← hv] at hNot
    have hc : p c = false := by simpa using hNot
    simp [hc]

/-- A lexeme is read again in front of any start of what followed it. -/
theorem Lexed.ofText_cut {c : Char} {t u : Text} (h : u <+: (Lexed.ofText c t).rest) :
    Lexed.ofText c ((Lexed.ofText c t).more ++ u) =
      ⟨(Lexed.ofText c t).kind, (Lexed.ofText c t).more, u⟩ := by
  by_cases hWord : isWordStart c
  · simp only [Lexed.ofText, hWord, if_true] at h ⊢
    obtain ⟨hTake, hDrop⟩ := takeWhile_append_of_isPrefix h
    rw [hTake, hDrop]
  by_cases hDigit : c.isDigit
  · simp only [Lexed.ofText, hWord, hDigit, if_true, Bool.false_eq_true, if_false] at h ⊢
    obtain ⟨hTake, hDrop⟩ := takeWhile_append_of_isPrefix h
    rw [hTake, hDrop]
  by_cases hScope : c = ':' ∧ t.head? = some ':'
  · obtain ⟨rfl, hHead⟩ := hScope
    obtain ⟨rest, rfl⟩ := List.head?_eq_some_iff.mp hHead
    rfl
  · have hLexed (v : Text) (hv : ¬(c = ':' ∧ v.head? = some ':')) :
        Lexed.ofText c v = ⟨markKind c, [], v⟩ := by
      simp [Lexed.ofText, hWord, hDigit, hv]
    rw [hLexed t hScope] at h ⊢
    refine hLexed u ?_
    rintro ⟨rfl, hHead⟩
    obtain ⟨v, rfl⟩ := h
    obtain ⟨rest, rfl⟩ := List.head?_eq_some_iff.mp hHead
    exact hScope ⟨rfl, rfl⟩

namespace TokenLine

theorem text_cons (token : Token) (tokens : List Token) (rest : Text) :
    text ⟨token :: tokens, rest⟩ = token.text ++ text ⟨tokens, rest⟩ := by
  simp [text]

theorem text_take_append_text_drop (line : TokenLine) (n : Nat) :
    text ⟨line.tokens.take n, []⟩ ++ text ⟨line.tokens.drop n, line.rest⟩ = line.text := by
  simp only [text, List.append_nil]
  rw [← List.append_assoc, ← List.flatMap_append, List.take_append_drop]

theorem isGap_of_dropWhile_eq_cons {t following : Text} {c : Char}
    (h : t.dropWhile isGap = c :: following) : isGap c = false := by
  have hNot := List.head?_dropWhile_not isGap t
  rw [h] at hNot
  simpa using hNot

/-- The tokens of a line cut after one of its tokens. -/
theorem ofText_text_take (t : Text) (n : Nat) :
    ofText (text ⟨(ofText t).tokens.take n, []⟩) = ⟨(ofText t).tokens.take n, []⟩ := by
  fun_induction ofText t generalizing n with
  | case1 =>
    rw [List.take_nil]
    exact ofText_of_dropWhile_eq_nil rfl
  | case2 t c following h lexed line ih =>
    cases n with
    | zero => exact ofText_of_dropWhile_eq_nil rfl
    | succ n =>
      have hCut : text ⟨line.tokens.take n, []⟩ <+: lexed.rest := by
        refine ⟨text ⟨line.tokens.drop n, line.rest⟩, ?_⟩
        rw [text_take_append_text_drop, text_ofText]
      have hGap : ∀ d ∈ t.takeWhile isGap, isGap d := fun d hd => List.mem_takeWhile_imp hd
      have hText : text ⟨⟨t.takeWhile isGap, lexed.kind, c :: lexed.more⟩ ::
          line.tokens.take n, []⟩ =
          t.takeWhile isGap ++ c :: (lexed.more ++ text ⟨line.tokens.take n, []⟩) := by
        simp [text_cons, Token.text]
      have hc := isGap_of_dropWhile_eq_cons h
      have hDrop (u : Text) : (t.takeWhile isGap ++ c :: u).dropWhile isGap = c :: u := by
        rw [List.dropWhile_append_of_pos hGap, List.dropWhile_cons_of_neg (by simp [hc])]
      have hTake (u : Text) : (t.takeWhile isGap ++ c :: u).takeWhile isGap =
          t.takeWhile isGap := by
        rw [List.takeWhile_append_of_pos hGap, List.takeWhile_cons_of_neg (by simp [hc]),
          List.append_nil]
      rw [List.take_succ_cons, hText, ofText_of_dropWhile_eq_cons (hDrop _),
        Lexed.ofText_cut hCut, hTake, ih n]

theorem spansFrom_append (offset : Nat) (first last : List Token) :
    spansFrom offset (first ++ last) =
      spansFrom offset first ++ spansFrom (offset + (text ⟨first, []⟩).byteSize) last := by
  induction first generalizing offset with
  | nil => rfl
  | cons token first ih =>
    simp [spansFrom, ih, text_cons, Token.text, Nat.add_assoc]

/-- A token stops where the text up to it ends. -/
theorem stop_spansFrom {tokens : List Token} {n : Nat} (h : n < tokens.length) (offset : Nat) :
    (spansFrom offset tokens)[n]?.map Span.stop =
      some (offset + (text ⟨tokens.take (n + 1), []⟩).byteSize) := by
  induction tokens generalizing n offset with
  | nil => simp at h
  | cons token tokens ih =>
    cases n with
    | zero => simp [spansFrom, text, Token.text, Nat.add_assoc]
    | succ n =>
      have hTail := ih (Nat.lt_of_succ_lt_succ h) (offset + token.text.byteSize)
      simp only [spansFrom, List.getElem?_cons_succ, List.take_succ_cons, text_cons,
        Text.byteSize_append, Token.text] at hTail ⊢
      rw [Nat.add_assoc offset, hTail, Nat.add_assoc]

end TokenLine

end NodeScaffold
