import Mathlib.Data.List.TakeWhile
import NodeScaffold.Text.Blank
import NodeScaffold.Token.Lexer

/-! # The lexemes of a text

The recognisers look at the kinds and lexemes of a line and not at its gaps. A text that starts with
a gap, a word or a mark is read one lexeme at a time; conversely an identifier is always a word
other than the keyword, and everything between lexemes is blank. -/
namespace NodeScaffold
set_option autoImplicit false

/-- Items of one class end where one of another class follows. -/
theorem span_append_cancel {α : Type} {p : α → Bool} {w w' rest rest' : List α}
    (hw : ∀ c ∈ w, p c) (hw' : ∀ c ∈ w', p c) (hRest : ∀ c ∈ rest.head?, p c = false)
    (hRest' : ∀ c ∈ rest'.head?, p c = false) (h : w ++ rest = w' ++ rest') :
    w = w' ∧ rest = rest' := by
  have hStop {u : List α} (hu : ∀ c ∈ u.head?, p c = false) : u.takeWhile p = [] := by
    cases u with
    | nil => rfl
    | cons c u => simp [hu c rfl]
  have hWords := congrArg (List.takeWhile p) h
  rw [List.takeWhile_append_of_pos hw, List.takeWhile_append_of_pos hw', hStop hRest,
    hStop hRest', List.append_nil, List.append_nil] at hWords
  subst hWords
  exact ⟨rfl, List.append_cancel_left h⟩

def isWord : Text → Bool
  | [] => false
  | c :: rest => isWordStart c && rest.all isWordPart

/-- Whether a text can name something: a word other than the keyword. -/
def isName (t : Text) : Bool := isWord t && t ≠ Text.ofString "struct"

def TokenLine.lexemes (line : TokenLine) : List (TokenKind × Text) :=
  line.tokens.map fun t => (t.kind, t.lexeme)

def Text.lexemes (t : Text) : List (TokenKind × Text) := (TokenLine.ofText t).lexemes

theorem isWordPart_of_isWordStart {c : Char} (h : isWordStart c) : isWordPart c := by
  simp only [isWordStart, isWordPart, Char.isAlphanum, Bool.or_eq_true] at h ⊢
  exact h.imp_left Or.inl

theorem isWordPart_of_mem {w : Text} (hw : isWord w) {c : Char} (hc : c ∈ w) : isWordPart c := by
  cases w with
  | nil => cases hc
  | cons d rest =>
    simp only [isWord, Bool.and_eq_true, List.all_eq_true] at hw
    rcases List.mem_cons.mp hc with rfl | hc
    · exact isWordPart_of_isWordStart hw.1
    · exact hw.2 c hc

theorem isWord_of_isName {t : Text} (h : isName t) : isWord t := by
  simp only [isName, Bool.and_eq_true] at h
  exact h.1

theorem wordKind_of_isName {t : Text} (h : isName t) : wordKind t = .ident := by
  simp only [isName, Bool.and_eq_true, decide_eq_true_eq] at h
  exact if_neg h.2

theorem isBlank_of_isGap {c : Char} (h : isGap c) : Text.isBlank c := by
  simp only [isGap, Bool.or_eq_true, decide_eq_true_eq] at h
  obtain (((rfl | rfl) | rfl) | rfl) | rfl := h <;> decide

theorem toNat_of_isWordPart {c : Char} (h : isWordPart c) : 48 ≤ c.toNat ∧ c.toNat < 123 := by
  simp only [isWordPart, Char.isAlphanum, Char.isDigit] at h
  delta Char.isAlpha Char.isUpper Char.isLower at h
  simp only [Bool.or_eq_true, Bool.and_eq_true, decide_eq_true_eq, UInt32.le_iff_toNat_le,
    ge_iff_le] at h
  rcases h with h | rfl
  · change 48 ≤ c.val.toNat ∧ c.val.toNat < 123
    have : 'A'.val.toNat = 65 := rfl
    have : 'Z'.val.toNat = 90 := rfl
    have : 'a'.val.toNat = 97 := rfl
    have : 'z'.val.toNat = 122 := rfl
    have : '0'.val.toNat = 48 := rfl
    have : '9'.val.toNat = 57 := rfl
    omega
  · decide

theorem isBlank_of_isWordPart {c : Char} (h : isWordPart c) : Text.isBlank c = false := by
  have hTable : ∀ n : Fin 123, 48 ≤ n.val → Text.blanks.covers n.val = false := by decide
  obtain ⟨hLow, hHigh⟩ := toNat_of_isWordPart h
  exact hTable ⟨c.toNat, hHigh⟩ hLow

/-- A mark is a token of its own wherever it stands. -/
def isMark (c : Char) : Bool := markKind c ≠ .unknown && c ≠ ':'

theorem eq_of_isMark {c : Char} (h : isMark c) :
    c = ';' ∨ c = ',' ∨ c = '{' ∨ c = '}' ∨ c = '(' ∨ c = ')' ∨ c = '<' ∨ c = '>' ∨ c = '*' ∨
      c = '&' ∨ c = '=' := by
  simp only [isMark, Bool.and_eq_true, decide_eq_true_eq] at h
  unfold markKind at h
  split at h <;> simp_all

theorem isGap_of_isWordStart {c : Char} (h : isWordStart c) : isGap c = false := by
  by_contra hGap
  simp only [Bool.not_eq_false, isGap, Bool.or_eq_true, decide_eq_true_eq] at hGap
  obtain (((rfl | rfl) | rfl) | rfl) | rfl := hGap <;> simp [isWordStart] at h

theorem Lexed.isName_of_kind_eq_ident {c : Char} {t : Text}
    (h : (Lexed.ofText c t).kind = .ident) : isName (c :: (Lexed.ofText c t).more) := by
  unfold Lexed.ofText at h ⊢
  split at h
  · next hStart =>
    rw [if_pos hStart]
    simp only [wordKind] at h
    split at h
    · cases h
    · next hWord =>
      simp only [isName, isWord, hStart, Bool.true_and, Bool.and_eq_true, List.all_eq_true,
        decide_eq_true_eq]
      exact ⟨fun d hd => List.mem_takeWhile_imp hd, hWord⟩
  · split at h
    · cases h
    · split at h
      · cases h
      · -- no mark has the kind of an identifier
        simp only [markKind] at h
        split at h <;> cases h

namespace TokenLine

theorem ofText_of_dropWhile_eq_cons {t following : Text} {c : Char}
    (h : t.dropWhile isGap = c :: following) :
    ofText t = ⟨⟨t.takeWhile isGap, (Lexed.ofText c following).kind,
        c :: (Lexed.ofText c following).more⟩ :: (ofText (Lexed.ofText c following).rest).tokens,
      (ofText (Lexed.ofText c following).rest).rest⟩ := by
  rw [ofText]
  split
  · next hNil => simp [hNil] at h
  · next d rest hCons =>
    rw [h] at hCons
    cases hCons
    rfl

theorem ofText_of_dropWhile_eq_nil {t : Text} (h : t.dropWhile isGap = []) :
    ofText t = ⟨[], t⟩ := by
  rw [ofText]
  split
  · rfl
  · next hCons => simp [hCons] at h

/-- Only gaps stand between the tokens and after the last one. -/
theorem isGap_of_mem_ofText (t : Text) :
    (∀ c ∈ (ofText t).rest, isGap c) ∧ ∀ token ∈ (ofText t).tokens, ∀ c ∈ token.gap, isGap c := by
  fun_induction ofText t with
  | case1 t h =>
    refine ⟨fun c hc => ?_, by simp⟩
    exact List.dropWhile_eq_nil_iff.mp h c hc
  | case2 t c following _ lexed line ih =>
    refine ⟨ih.1, fun token hToken d hd => ?_⟩
    rcases List.mem_cons.mp hToken with rfl | hToken
    · exact List.mem_takeWhile_imp hd
    · exact ih.2 token hToken d hd

/-- An identifier is a word other than the keyword. -/
theorem isName_of_mem_ofText {t : Text} {token : Token} (h : token ∈ (ofText t).tokens)
    (hKind : token.kind = .ident) : isName token.lexeme := by
  fun_induction ofText t with
  | case1 => simp at h
  | case2 t c following _ lexed line ih =>
    rcases List.mem_cons.mp h with rfl | h
    · exact Lexed.isName_of_kind_eq_ident hKind
    · exact ih h

end TokenLine

namespace Text

theorem lexemes_nil : lexemes [] = [] := by
  rw [lexemes, TokenLine.ofText_of_dropWhile_eq_nil rfl]
  rfl

theorem lexemes_gap {c : Char} (h : isGap c) (t : Text) : lexemes (c :: t) = lexemes t := by
  have hDrop : (c :: t).dropWhile isGap = t.dropWhile isGap := List.dropWhile_cons_of_pos h
  cases hRest : t.dropWhile isGap with
  | nil =>
    rw [lexemes, lexemes, TokenLine.ofText_of_dropWhile_eq_nil (hDrop.trans hRest),
      TokenLine.ofText_of_dropWhile_eq_nil hRest]
    rfl
  | cons d following =>
    rw [lexemes, lexemes, TokenLine.ofText_of_dropWhile_eq_cons (hDrop.trans hRest),
      TokenLine.ofText_of_dropWhile_eq_cons hRest]
    rfl

/-- Trimming in front takes no lexeme away, unless a blank is no gap. -/
theorem lexemes_trimStart {t : Text} (h : ∀ c ∈ t, isBlank c → isGap c) :
    lexemes (trimStart t) = lexemes t := by
  induction t with
  | nil => rfl
  | cons c t ih =>
    by_cases hc : isBlank c
    · rw [lexemes_gap (h c List.mem_cons_self hc), ← ih fun d hd => h d (List.mem_cons_of_mem _ hd)]
      exact congrArg lexemes (List.dropWhile_cons_of_pos hc)
    · exact congrArg lexemes (List.dropWhile_cons_of_neg hc)

theorem lexemes_cons {c : Char} (h : isGap c = false) (t : Text) :
    lexemes (c :: t) = ((Lexed.ofText c t).kind, c :: (Lexed.ofText c t).more) ::
      lexemes (Lexed.ofText c t).rest := by
  have hDrop : (c :: t).dropWhile isGap = c :: t := List.dropWhile_cons_of_neg (by simp [h])
  rw [lexemes, TokenLine.ofText_of_dropWhile_eq_cons hDrop]
  rfl

/-- A word is read whole if no part of a word follows it. -/
theorem lexemes_word_append {w rest : Text} (hw : isWord w)
    (hRest : ∀ c ∈ rest.head?, isWordPart c = false) :
    lexemes (w ++ rest) = (wordKind w, w) :: lexemes rest := by
  cases w with
  | nil => cases hw
  | cons c more =>
    simp only [isWord, Bool.and_eq_true, List.all_eq_true] at hw
    obtain ⟨hStart, hMore⟩ := hw
    have hStop : rest.takeWhile isWordPart = [] ∧ rest.dropWhile isWordPart = rest := by
      cases rest with
      | nil => exact ⟨rfl, rfl⟩
      | cons d rest => simp [hRest d rfl]
    have hLexed : Lexed.ofText c (more ++ rest) = ⟨wordKind (c :: more), more, rest⟩ := by
      rw [Lexed.ofText, if_pos hStart, List.takeWhile_append_of_pos hMore,
        List.dropWhile_append_of_pos hMore, hStop.1, hStop.2, List.append_nil]
    rw [List.cons_append, lexemes_cons (isGap_of_isWordStart hStart), hLexed]

theorem lexemes_mark {c : Char} (h : isMark c) (t : Text) :
    lexemes (c :: t) = (markKind c, [c]) :: lexemes t := by
  obtain rfl | rfl | rfl | rfl | rfl | rfl | rfl | rfl | rfl | rfl | rfl := eq_of_isMark h
  all_goals
    rw [lexemes_cons (by decide)]
    rfl

theorem lexemes_scope (t : Text) :
    lexemes (':' :: ':' :: t) = (.colonColon, [':', ':']) :: lexemes t := by
  rw [lexemes_cons (by decide)]
  rfl

theorem lexemes_colon {t : Text} (h : t.head? ≠ some ':') :
    lexemes (':' :: t) = (.colon, [':']) :: lexemes t := by
  have hLexed : Lexed.ofText ':' t = ⟨.colon, [], t⟩ := by
    simp [Lexed.ofText, isWordStart, h, markKind]
  rw [lexemes_cons (by decide), hLexed]

end Text

end NodeScaffold
