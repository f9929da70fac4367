import NodeScaffold.Proofs.Recognition

/-! # Lines joined at a delimiter

No lexeme reaches over a gap or over a mark, whatever stands around it. So the tokens of a line with
a delimiter in it are those before it, the mark unless it is a gap, and those behind it as if they
stood alone. -/
namespace NodeScaffold
set_option autoImplicit false

theorem takeWhile_append_cons {p : Char → Bool} {c : Char} (h : p c = false) (t u : Text) :
    (t ++ c :: u).takeWhile p = t.takeWhile p ∧
      (t ++ c :: u).dropWhile p = t.dropWhile p ++ c :: u := by
  induction t with
  | nil => simp [h]
  | cons d t ih =>
    by_cases hd : p d
    · simp [hd, ih]
    · simp [hd]

theorem takeWhile_append_of_dropWhile_eq_cons {p : Char → Bool} {t following : Text} {c : Char}
    (h : t.dropWhile p = c :: following) (u : Text) :
    (t ++ u).takeWhile p = t.takeWhile p ∧ (t ++ u).dropWhile p = c :: (following ++ u) := by
  have hAll : ∀ d ∈ t.takeWhile p, p d := fun d hd => List.mem_takeWhile_imp hd
  have hc : p c = false := by simpa [h] using List.head?_dropWhile_not p t
  have hText : t ++ u = t.takeWhile p ++ c :: (following ++ u) := by
    rw [← List.cons_append, ← h, ← List.append_assoc, List.takeWhile_append_dropWhile]
  rw [hText, List.takeWhile_append_of_pos hAll, List.dropWhile_append_of_pos hAll]
  simp [hc]

def isDelimiter (c : Char) : Bool := isGap c || isMark c

theorem isDelimiter_of_isMark {c : Char} (h : isMark c) : isDelimiter c := by
  simp [isDelimiter, h]

theorem isDelimiter_of_isGap {c : Char} (h : isGap c) : isDelimiter c := by simp [isDelimiter, h]

theorem plain_of_isDelimiter {c : Char} (h : isDelimiter c) :
    isWordPart c = false ∧ isNumberPart c = false ∧ c ≠ ':' := by
  rw [isDelimiter, Bool.or_eq_true] at h
  rcases h with h | h
  · simp only [isGap, Bool.or_eq_true, decide_eq_true_eq] at h
    obtain (((rfl | rfl) | rfl) | rfl) | rfl := h
    all_goals decide
  · obtain rfl | rfl | rfl | rfl | rfl | rfl | rfl | rfl | rfl | rfl | rfl := eq_of_isMark h
    all_goals decide

/-- No lexeme reaches over a character that is in none but at its head. -/
theorem Lexed.ofText_append_cons {c : Char}
    (h : isWordPart c = false ∧ isNumberPart c = false ∧ c ≠ ':') (d : Char) (t u : Text) :
    Lexed.ofText d (t ++ c :: u) =
      ⟨(Lexed.ofText d t).kind, (Lexed.ofText d t).more, (Lexed.ofText d t).rest ++ c :: u⟩ := by
  obtain ⟨hWord, hNumber, hColon⟩ := h
  have hWords := takeWhile_append_cons hWord t u
  have hNumbers := takeWhile_append_cons hNumber t u
  have hHead : (t ++ c :: u).head? = some ':' ↔ t.head? = some ':' := by
    cases t <;> simp [hColon]
  simp only [Lexed.ofText, hWords, hNumbers, hHead]
  split
  · rfl
  · split
    · rfl
    · split
      · next hScope =>
        simp only [Bool.and_eq_true, decide_eq_true_eq] at hScope
        obtain ⟨rest, rfl⟩ := List.head?_eq_some_iff.mp hScope.2
        rfl
      · rfl

namespace TokenLine

/-- What such a character follows is read alone; the character is read with the gap before it and
all that comes after it. -/
theorem ofText_append_cons {c : Char}
    (h : isWordPart c = false ∧ isNumberPart c = false ∧ c ≠ ':') (t u : Text) :
    ofText (t ++ c :: u) =
      ⟨(ofText t).tokens ++ (ofText ((ofText t).rest ++ c :: u)).tokens,
        (ofText ((ofText t).rest ++ c :: u)).rest⟩ := by
  fun_induction ofText t with
  | case1 => rfl
  | case2 t d following hCons lexed line ih =>
    obtain ⟨hTake, hDrop⟩ := takeWhile_append_of_dropWhile_eq_cons hCons (c :: u)
    rw [ofText_of_dropWhile_eq_cons hDrop, hTake, Lexed.ofText_append_cons h, ih]
    rfl

/-- The tokens of two texts with a mark between them. -/
theorem ofText_append_mark {c : Char} (h : isMark c) (t u : Text) :
    ofText (t ++ c :: u) =
      ⟨(ofText t).tokens ++ ⟨(ofText t).rest, markKind c, [c]⟩ :: (ofText u).tokens,
        (ofText u).rest⟩ := by
  have hGaps := (isGap_of_mem_ofText t).1
  have hGap : isGap c = false := by
    obtain rfl | rfl | rfl | rfl | rfl | rfl | rfl | rfl | rfl | rfl | rfl := eq_of_isMark h
    all_goals decide
  have hLexed : Lexed.ofText c u = ⟨markKind c, [], u⟩ := by
    obtain rfl | rfl | rfl | rfl | rfl | rfl | rfl | rfl | rfl | rfl | rfl := eq_of_isMark h
    all_goals rfl
  have hDrop : ((ofText t).rest ++ c :: u).dropWhile isGap = c :: u := by
    rw [List.dropWhile_append_of_pos hGaps, List.dropWhile_cons_of_neg (by simp [hGap])]
  have hTake : ((ofText t).rest ++ c :: u).takeWhile isGap = (ofText t).rest := by
    rw [List.takeWhile_append_of_pos hGaps, List.takeWhile_cons_of_neg (by simp [hGap]),
      List.append_nil]
  rw [ofText_append_cons (plain_of_isDelimiter (isDelimiter_of_isMark h)),
    ofText_of_dropWhile_eq_cons hDrop, hTake, hLexed]

end TokenLine

theorem Text.lexemes_gaps_append {gap : Text} (h : ∀ c ∈ gap, isGap c) (t : Text) :
    lexemes (gap ++ t) = lexemes t := by
  induction gap with
  | nil => rfl
  | cons c gap ih =>
    obtain ⟨hc, hGap⟩ := List.forall_mem_cons.mp h
    rw [List.cons_append, lexemes_gap hc, ih hGap]

/-- The lexemes of two texts with a gap between them. -/
theorem Text.lexemes_append_gap {c : Char} (h : isGap c) (t u : Text) :
    lexemes (t ++ c :: u) = lexemes t ++ lexemes u := by
  calc
    _ = lexemes t ++ lexemes ((TokenLine.ofText t).rest ++ c :: u) := by
      rw [lexemes, TokenLine.ofText_append_cons (plain_of_isDelimiter (isDelimiter_of_isGap h))]
      exact List.map_append
    _ = _ := by rw [lexemes_gaps_append (TokenLine.isGap_of_mem_ofText t).1, lexemes_gap h]

/-- The lexemes of two texts with a mark between them. -/
theorem Text.lexemes_append_mark {c : Char} (h : isMark c) (t u : Text) :
    lexemes (t ++ c :: u) = lexemes t ++ (markKind c, [c]) :: lexemes u := by
  simp [lexemes, TokenLine.lexemes, TokenLine.ofText_append_mark h]

/-- A header that a text starts with: its words come first, and its body is what follows the opening
brace. -/
theorem Header.find?_ofText_append_brace {stem keyword name colon base : Text} (t : Text)
    (h : stem.lexemes = [(.structWord, keyword), (.ident, name), (.colon, colon), (.ident, base)]) :
    find? (TokenLine.ofText (stem ++ '\x7b' :: t)) = some ⟨name, some base, t.trim⟩ := by
  have hText : TokenLine.text ⟨(TokenLine.ofText t).tokens, (TokenLine.ofText t).rest⟩ = t :=
    TokenLine.text_ofText t
  simp only [Text.lexemes, TokenLine.lexemes] at h
  rw [TokenLine.ofText_append_mark (by decide)]
  generalize TokenLine.ofText stem = line at h ⊢
  obtain ⟨tokens, rest⟩ := line
  simp only [List.map_eq_cons_iff, List.map_eq_nil_iff, Prod.mk.injEq] at h
  obtain ⟨⟨_, _, _⟩, _, rfl, ⟨rfl, rfl⟩, ⟨_, _, _⟩, _, rfl, ⟨rfl, rfl⟩, ⟨_, _, _⟩, _, rfl,
    ⟨rfl, rfl⟩, ⟨_, _, _⟩, _, rfl, ⟨rfl, rfl⟩, rfl⟩ := h
  simp [find?, search, atHead?, markKind, hText]

end NodeScaffold
