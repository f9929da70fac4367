import Mathlib.Data.List.DropRight
import NodeScaffold.Proofs.Delimiters
import NodeScaffold.Proofs.SourcePlaces
import NodeScaffold.Proofs.Statements

/-! # What the spacing of a line can tell

The close mark and the qualifier of a tag are looked for as they are written, so it counts whether
their two tokens are written together. This and the lexemes are the signs of a text. Trimming a text
or cutting it at its semicolons takes signs away from it and changes none. -/
namespace NodeScaffold
set_option autoImplicit false

/-- Whether two neighbours are written together and make up the close mark or the qualifier of a
tag. -/
def Token.joins (token next : Token) : Bool :=
  next.gap.isEmpty &&
    (token.kind = .braceClose && next.kind = .semicolon ||
      token.kind = .ident && token.lexeme = Text.ofString "SyntaxKind" && next.kind = .colonColon)

/-- A token as it counts: its kind and lexeme, and whether it joins the next one. -/
structure Sign where
  kind : TokenKind
  lexeme : Text
  joined : Bool
deriving DecidableEq

namespace Sign

def ofTokens : List Token → List Sign
  | [] => []
  | token :: tokens => ⟨token.kind, token.lexeme, tokens.head?.any token.joins⟩ :: ofTokens tokens

def isBlank (sign : Sign) : Bool := sign.lexeme.all Text.isBlank

theorem map_ofTokens (tokens : List Token) :
    (ofTokens tokens).map (fun sign => (sign.kind, sign.lexeme)) =
      tokens.map fun token => (token.kind, token.lexeme) := by
  induction tokens with
  | nil => rfl
  | cons token tokens ih => exact congrArg (_ :: ·) ih

theorem ofTokens_drop (tokens : List Token) (n : Nat) :
    ofTokens (tokens.drop n) = (ofTokens tokens).drop n := by
  induction tokens generalizing n with
  | nil => rw [List.drop_nil]; exact List.drop_nil.symm
  | cons token tokens ih =>
    cases n with
    | zero => rfl
    | succ n => exact ih n

theorem ofTokens_append {tokens more : List Token}
    (h : ∀ token ∈ tokens.getLast?, ∀ next ∈ more.head?, token.joins next = false) :
    ofTokens (tokens ++ more) = ofTokens tokens ++ ofTokens more := by
  induction tokens with
  | nil => rfl
  | cons token tokens ih =>
    cases tokens with
    | nil =>
      cases more with
      | nil => rfl
      | cons next more =>
        have hJoins := h token rfl next rfl
        simp [ofTokens, hJoins]
    | cons token' tokens =>
      have hMore := ih h
      exact congrArg (_ :: ·) hMore

end Sign

theorem Token.joins_eq_false_of_kind {token : Token} (h : token.kind ≠ .braceClose)
    (h' : token.kind ≠ .ident) (next : Token) : token.joins next = false := by
  simp [joins, h, h']

theorem Token.joins_eq_false_of_next {next : Token} (h : next.kind ≠ .semicolon)
    (h' : next.kind ≠ .colonColon) (token : Token) : token.joins next = false := by
  simp [joins, h, h']

namespace Text

def signs (t : Text) : List Sign := Sign.ofTokens (TokenLine.ofText t).tokens

def joints (t : Text) : List Bool := t.signs.map Sign.joined

theorem map_signs (t : Text) :
    t.signs.map (fun sign => (sign.kind, sign.lexeme)) = t.lexemes := Sign.map_ofTokens _

theorem signs_eq_iff {t u : Text} :
    t.signs = u.signs ↔ t.lexemes = u.lexemes ∧ t.joints = u.joints := by
  constructor
  · intro h
    rw [joints, joints, ← map_signs, ← map_signs, h]
    exact ⟨rfl, rfl⟩
  · rintro ⟨hLexemes, hJoints⟩
    have hZip (t : Text) : t.signs =
        List.zipWith (fun lexeme joined => ⟨lexeme.1, lexeme.2, joined⟩) t.lexemes t.joints := by
      rw [← map_signs, joints, List.zipWith_map, List.zipWith_self]
      exact (List.map_id _).symm
    rw [hZip t, hZip u, hLexemes, hJoints]

theorem signs_nil : signs [] = [] := by
  rw [signs, TokenLine.ofText_of_dropWhile_eq_nil rfl]
  rfl

theorem signs_gap {c : Char} (h : isGap c) (t : Text) : signs (c :: t) = signs t := by
  have hDrop : (c :: t).dropWhile isGap = t.dropWhile isGap := List.dropWhile_cons_of_pos h
  cases hRest : t.dropWhile isGap with
  | nil =>
    rw [signs, signs, TokenLine.ofText_of_dropWhile_eq_nil (hDrop.trans hRest),
      TokenLine.ofText_of_dropWhile_eq_nil hRest]
  | cons d following =>
    rw [signs, signs, TokenLine.ofText_of_dropWhile_eq_cons (hDrop.trans hRest),
      TokenLine.ofText_of_dropWhile_eq_cons hRest]
    rfl

theorem ofText_cons {c : Char} (h : isGap c = false) (t : Text) :
    TokenLine.ofText (c :: t) =
      ⟨⟨[], (Lexed.ofText c t).kind, c :: (Lexed.ofText c t).more⟩ ::
          (TokenLine.ofText (Lexed.ofText c t).rest).tokens,
        (TokenLine.ofText (Lexed.ofText c t).rest).rest⟩ := by
  have hDrop : (c :: t).dropWhile isGap = c :: t := List.dropWhile_cons_of_neg (by simp [h])
  have hTake : (c :: t).takeWhile isGap = [] := List.takeWhile_cons_of_neg (by simp [h])
  rw [TokenLine.ofText_of_dropWhile_eq_cons hDrop, hTake]

theorem plain_of_isBlank {c : Char} (h : isBlank c) :
    isWordPart c = false ∧ isNumberPart c = false ∧ c ≠ ':' := by
  have hWord : isWordPart c = false := by
    rw [← Bool.not_eq_true]
    intro hWord
    rw [isBlank_of_isWordPart hWord] at h
    cases h
  have hNe {d : Char} (hd : isBlank d = false) : c ≠ d := by
    rintro rfl
    rw [hd] at h
    cases h
  refine ⟨hWord, ?_, hNe (by decide)⟩
  simp only [isWordPart, Bool.or_eq_false_iff] at hWord
  simp [isNumberPart, hWord, hNe (d := '.') (by decide), hNe (d := '\x27') (by decide)]

theorem ofText_blank {c : Char} (h : isBlank c) (t : Text) :
    Lexed.ofText c t = ⟨.unknown, [], t⟩ := by
  obtain ⟨hWord, -, hColon⟩ := plain_of_isBlank h
  have hKind : markKind c = .unknown := by
    by_contra hMark
    unfold markKind at hMark
    split at hMark
    case h_13 => exact hMark rfl
    all_goals exact absurd h (by decide)
  have hStart : isWordStart c = false := by
    rw [← Bool.not_eq_true]
    intro hStart
    rw [isWordPart_of_isWordStart hStart] at hWord
    cases hWord
  have hDigit : c.isDigit = false := by
    simp only [isWordPart, Char.isAlphanum, Bool.or_eq_false_iff] at hWord
    exact hWord.1.2
  rw [Lexed.ofText_mark hStart hDigit fun hc => absurd hc hColon, hKind]

theorem signs_blank {c : Char} (h : isBlank c) (hGap : isGap c = false) (t : Text) :
    signs (c :: t) = ⟨.unknown, [c], false⟩ :: signs t := by
  rw [signs, ofText_cons hGap, ofText_blank h, signs, Sign.ofTokens]
  cases (TokenLine.ofText t).tokens with
  | nil => rfl
  | cons next tokens => simp [Token.joins]

/-- Trimming in front takes the blank signs away that a text starts with. -/
theorem signs_trimStart (t : Text) : (trimStart t).signs = t.signs.dropWhile Sign.isBlank := by
  induction t with
  | nil => simp [trimStart, signs_nil]
  | cons c t ih =>
    by_cases hc : isBlank c
    · have hTrim : trimStart (c :: t) = trimStart t := List.dropWhile_cons_of_pos hc
      rw [hTrim, ih]
      by_cases hGap : isGap c
      · rw [signs_gap hGap]
      · rw [signs_blank hc (by simpa using hGap),
          List.dropWhile_cons_of_pos (by simp [Sign.isBlank, hc])]
    · have hTrim : trimStart (c :: t) = c :: t := List.dropWhile_cons_of_neg hc
      have hGap : isGap c = false := by
        rw [← Bool.not_eq_true]
        exact fun hGap => hc (isBlank_of_isGap hGap)
      rw [hTrim, signs, ofText_cons hGap, Sign.ofTokens,
        List.dropWhile_cons_of_neg (by simp [Sign.isBlank, hc])]

/-- Blanks are unknown tokens at most. -/
theorem lexemes_of_blanks {t : Text} (h : ∀ c ∈ t, isBlank c) :
    ∀ lexeme ∈ t.lexemes, lexeme.1 = .unknown := by
  induction t with
  | nil => simp [lexemes_nil]
  | cons c t ih =>
    obtain ⟨hc, ht⟩ := List.forall_mem_cons.mp h
    by_cases hGap : isGap c
    · rw [lexemes_gap hGap]
      exact ih ht
    · rw [lexemes_cons (by simpa using hGap), ofText_blank hc]
      exact List.forall_mem_cons.mpr ⟨rfl, ih ht⟩

/-- Blanks behind a text only add blank signs. -/
theorem exists_signs_append_blanks (t : Text) {u : Text} (h : ∀ c ∈ u, isBlank c) :
    ∃ blanks, (∀ sign ∈ blanks, sign.isBlank) ∧ signs (t ++ u) = t.signs ++ blanks := by
  cases u with
  | nil => exact ⟨[], by simp, by simp⟩
  | cons c u =>
    have hLater : ∀ d ∈ (TokenLine.ofText t).rest ++ c :: u, isBlank d := by
      refine List.forall_mem_append.mpr ⟨fun d hd => ?_, h⟩
      exact isBlank_of_isGap ((TokenLine.isGap_of_mem_ofText t).1 d hd)
    refine ⟨signs ((TokenLine.ofText t).rest ++ c :: u), ?_, ?_⟩
    · have hTrim : trimStart ((TokenLine.ofText t).rest ++ c :: u) = [] :=
        List.dropWhile_eq_nil_iff.mpr hLater
      rw [← List.dropWhile_eq_nil_iff, ← signs_trimStart, hTrim, signs_nil]
    · rw [signs, TokenLine.ofText_append_cons (plain_of_isBlank (h c List.mem_cons_self))]
      apply Sign.ofTokens_append
      intro token _ next hNext
      have hUnknown : next.kind = .unknown := lexemes_of_blanks hLater (next.kind, next.lexeme)
        (List.mem_map_of_mem (List.mem_of_mem_head? hNext))
      apply Token.joins_eq_false_of_next
      · simp [hUnknown]
      · simp [hUnknown]

/-- The last sign of a text that ends in no blank is not blank. -/
theorem isBlank_getLast?_signs {t : Text} (h : ∀ c ∈ t.getLast?, isBlank c = false) :
    ∀ sign ∈ t.signs.getLast?, sign.isBlank = false := by
  intro sign hSign
  have hLexemes : ((TokenLine.ofText t).tokens.map Token.lexeme).getLast? = some sign.lexeme := by
    have hMap := congrArg (List.map Prod.snd) (map_signs t)
    rw [List.map_map, lexemes, TokenLine.lexemes, List.map_map] at hMap
    have hLast := congrArg List.getLast? hMap
    rw [List.getLast?_map, hSign] at hLast
    exact hLast.symm
  obtain ⟨token, hToken, hLexeme⟩ := Option.map_eq_some_iff.mp (List.getLast?_map ▸ hLexemes)
  obtain ⟨tokens, hTokens⟩ := List.getLast?_eq_some_iff.mp hToken
  have hText : t = TokenLine.text ⟨tokens, token.gap⟩ ++
      (token.lexeme ++ (TokenLine.ofText t).rest) := by
    conv_lhs => rw [← TokenLine.text_ofText t]
    simp [TokenLine.text, Token.text, hTokens]
  have hNonempty : token.lexeme ++ (TokenLine.ofText t).rest ≠ [] := by
    apply List.append_ne_nil_of_left_ne_nil
    apply @TokenLine.lexeme_ne_nil_of_mem_ofText t
    exact List.mem_of_getLast? hToken
  by_contra hBlank
  have hBlanks : ∀ c ∈ token.lexeme ++ (TokenLine.ofText t).rest, isBlank c := by
    refine List.forall_mem_append.mpr ⟨?_, fun c hc => ?_⟩
    · rw [hLexeme]
      simpa [Sign.isBlank] using hBlank
    · exact isBlank_of_isGap ((TokenLine.isGap_of_mem_ofText t).1 c hc)
  have hEnd : t.getLast? = (token.lexeme ++ (TokenLine.ofText t).rest).getLast? := by
    conv_lhs => rw [hText]
    exact List.getLast?_append_of_ne_nil _ hNonempty
  rw [List.getLast?_eq_some_getLast hNonempty] at hEnd
  have hLast := hBlanks _ (List.getLast_mem hNonempty)
  rw [h _ hEnd] at hLast
  cases hLast

theorem signs_trimEnd (t : Text) : (trimEnd t).signs = t.signs.rdropWhile Sign.isBlank := by
  obtain ⟨u, hu, ht⟩ := exists_eq_trimEnd_append t
  obtain ⟨blanks, hBlanks, hSigns⟩ := exists_signs_append_blanks (trimEnd t) hu
  rw [← ht] at hSigns
  have hLast := isBlank_getLast?_signs (isBlank_of_mem_getLast?_trimEnd t)
  rw [hSigns, List.rdropWhile, List.reverse_append,
    List.dropWhile_append_of_pos (by simpa using hBlanks)]
  cases hReverse : (trimEnd t).signs.reverse with
  | nil => simpa using hReverse
  | cons sign signs =>
    have hHead : sign.isBlank = false := by
      apply hLast
      rw [← List.head?_reverse, hReverse]
      rfl
    rw [List.dropWhile_cons_of_neg (by simp [hHead]), ← hReverse, List.reverse_reverse]

/-- Trimming takes the blank signs at both ends away. -/
theorem signs_trim (t : Text) :
    t.trim.signs = (t.signs.dropWhile Sign.isBlank).rdropWhile Sign.isBlank := by
  rw [trim, signs_trimEnd, signs_trimStart]

theorem signs_append_semicolon (t u : Text) :
    signs (t ++ ';' :: u) = signs (t ++ [';']) ++ u.signs := by
  have hMark : isMark ';' := by decide
  have hEnd := TokenLine.ofText_append_mark hMark t []
  have hNil : TokenLine.ofText [] = ⟨[], []⟩ := TokenLine.ofText_of_dropWhile_eq_nil rfl
  rw [hNil] at hEnd
  rw [signs, signs, signs, hEnd, TokenLine.ofText_append_mark hMark, ← Sign.ofTokens_append]
  · simp
  · intro token hToken next _
    rw [List.getLast?_concat, Option.mem_some_iff] at hToken
    subst hToken
    exact Token.joins_eq_false_of_kind (by simp [markKind]) (by simp [markKind]) next

end Text

theorem TokenLine.matches_of_mem_ofText {t : Text} {token : Token} (h : token ∈ (ofText t).tokens)
    (hKind : token.kind ≠ .unknown) : token.kind.Matches token.lexeme := by
  fun_induction ofText t with
  | case1 => simp at h
  | case2 t c following _ lexed line ih =>
    rcases List.mem_cons.mp h with rfl | h
    · exact Lexed.matches_ofText hKind
    · exact ih h

theorem TokenLine.lexeme_eq_of_mark {t : Text} {token : Token} (h : token ∈ (ofText t).tokens)
    {c : Char} (hKind : token.kind = markKind c) (hMark : markKind c ≠ .unknown) :
    token.lexeme = [c] := by
  have hMatch := matches_of_mem_ofText h (hKind ▸ hMark)
  rw [hKind] at hMatch
  exact (TokenKind.matches_markKind hMark).mp hMatch

theorem TokenLine.lexeme_isInfix {t : Text} {token : Token} (h : token ∈ (ofText t).tokens) :
    token.lexeme <:+: t := by
  obtain ⟨tokens, tokens', hTokens⟩ := List.append_of_mem h
  refine ⟨text ⟨tokens, token.gap⟩, text ⟨tokens', (ofText t).rest⟩, ?_⟩
  conv_rhs => rw [← text_ofText t]
  simp [text, Token.text, hTokens]

namespace Text

theorem semicolon_mem_iff {t : Text} : ';' ∈ t ↔ .semicolon ∈ t.lexemes.map Prod.fst := by
  constructor
  · intro h
    obtain ⟨u, v, rfl⟩ := List.append_of_mem h
    rw [lexemes_append_mark (by decide)]
    simp [markKind]
  · intro h
    obtain ⟨lexeme, hLexeme, hKind⟩ := List.mem_map.mp h
    obtain ⟨token, hToken, rfl⟩ := List.mem_map.mp hLexeme
    have hMark := @TokenLine.lexeme_eq_of_mark t token hToken ';' hKind (by decide)
    apply (TokenLine.lexeme_isInfix hToken).subset
    rw [hMark]
    exact List.mem_singleton.mpr rfl

theorem exists_signs_semicolon {t : Text} (h : ';' ∉ t) : ∃ init sign,
    signs (t ++ [';']) = init ++ [sign] ∧ (∀ sign ∈ init, decide (sign.kind ≠ .semicolon)) ∧
      sign.kind = .semicolon := by
  have hMap := map_signs (t ++ [';'])
  rw [lexemes_append_mark (by decide), lexemes_nil] at hMap
  obtain ⟨init, last, hSigns, hInit, hLast⟩ := List.map_eq_append_iff.mp hMap
  obtain ⟨sign, rfl, hSign⟩ := List.map_eq_singleton_iff.mp hLast
  refine ⟨init, sign, hSigns, fun sign hMem => ?_, congrArg Prod.fst hSign⟩
  apply decide_eq_true
  intro hKind
  apply h
  rw [semicolon_mem_iff, ← hInit, List.map_map]
  exact List.mem_map.mpr ⟨sign, hMem, hKind⟩

/-- Texts with the same signs are cut at their first semicolons into texts with the same signs. -/
theorem signs_of_append_semicolon {t u t' u' : Text} (ht : ';' ∉ t) (ht' : ';' ∉ t')
    (h : signs (t ++ ';' :: u) = signs (t' ++ ';' :: u')) :
    signs (t ++ [';']) = signs (t' ++ [';']) ∧ u.signs = u'.signs := by
  obtain ⟨init, sign, hSigns, hInit, hSign⟩ := exists_signs_semicolon ht
  obtain ⟨init', sign', hSigns', hInit', hSign'⟩ := exists_signs_semicolon ht'
  rw [signs_append_semicolon t u, signs_append_semicolon t' u', hSigns, hSigns',
    List.append_assoc, List.append_assoc] at h
  obtain ⟨rfl, hRest⟩ := span_append_cancel hInit hInit' (by simp [hSign]) (by simp [hSign']) h
  obtain ⟨rfl, hLater⟩ := List.cons.inj hRest
  exact ⟨hSigns.trans hSigns'.symm, hLater⟩

theorem signs_eq_nil_iff_of_trim {t : Text} (h : t.trim = t) : t.signs = [] ↔ t = [] := by
  constructor
  · intro hSigns
    have hTokens : (TokenLine.ofText t).tokens = [] := by
      have hMap := map_signs t
      rw [hSigns] at hMap
      simpa [lexemes, TokenLine.lexemes] using hMap.symm
    have hText := TokenLine.text_ofText t
    rw [TokenLine.text, hTokens] at hText
    rw [← h, ← hText]
    exact trim_eq_nil fun c hc => isBlank_of_isGap ((TokenLine.isGap_of_mem_ofText t).1 c hc)
  · rintro rfl
    exact signs_nil

/-- Trimmed texts with the same lexemes, whose marks are written together at the same places. -/
structure Respaced (t u : Text) : Prop where
  trim_left : t.trim = t
  trim_right : u.trim = u
  lexemes : t.lexemes = u.lexemes
  joints : t.joints = u.joints

theorem Respaced.signs {t u : Text} (h : t.Respaced u) : t.signs = u.signs :=
  signs_eq_iff.mpr ⟨h.lexemes, h.joints⟩

theorem respaced_trim {t u : Text} (h : t.signs = u.signs) : t.trim.Respaced u.trim := by
  have hTrim : t.trim.signs = u.trim.signs := by rw [signs_trim, signs_trim, h]
  obtain ⟨hLexemes, hJoints⟩ := signs_eq_iff.mp hTrim
  exact ⟨trim_trim t, trim_trim u, hLexemes, hJoints⟩

/-- Texts with the same signs have statements with the same signs. -/
theorem forall₂_bodyStatements {t u : Text} (h : t.signs = u.signs) :
    List.Forall₂ Respaced (bodyStatements t) (bodyStatements u) := by
  have hLexemes := (signs_eq_iff.mp h).1
  obtain ⟨pieces, rest, hPieces, hRest, rfl⟩ := exists_eq_pieces ';' t
  induction pieces generalizing u with
  | nil =>
    rw [List.flatMap_nil, List.nil_append] at h hLexemes ⊢
    have hu : ';' ∉ u := by rwa [semicolon_mem_iff, ← hLexemes, ← semicolon_mem_iff]
    have hTrim : rest.trim.Respaced u.trim := respaced_trim h
    have hNil : rest.trim = [] ↔ u.trim = [] := by
      rw [← signs_eq_nil_iff_of_trim (trim_trim rest), hTrim.signs,
        signs_eq_nil_iff_of_trim (trim_trim u)]
    have hOne {t : Text} (ht : ';' ∉ t) :
        bodyStatements t = if t.trim = [] then [] else [t.trim] :=
      @bodyStatements_pieces [] t (by simp) ht
    rw [hOne hRest, hOne hu]
    by_cases hEmpty : rest.trim = []
    · rw [if_pos hEmpty, if_pos (hNil.mp hEmpty)]
      exact .nil
    · rw [if_neg hEmpty, if_neg (mt hNil.mpr hEmpty)]
      exact .cons hTrim .nil
  | cons piece pieces ih =>
    obtain ⟨hPiece, hPieces⟩ := List.forall_mem_cons.mp hPieces
    have hCons : (piece :: pieces).flatMap (· ++ [';']) ++ rest =
        piece ++ ';' :: (pieces.flatMap (· ++ [';']) ++ rest) := by simp
    rw [hCons] at h hLexemes ⊢
    have hu : ';' ∈ u := by
      rw [semicolon_mem_iff, ← hLexemes, ← semicolon_mem_iff]
      simp
    obtain ⟨piece', u', rfl, hPiece'⟩ := List.eq_append_cons_of_mem hu
    obtain ⟨hFirst, hLater⟩ := signs_of_append_semicolon hPiece hPiece' h
    rw [bodyStatements_append_cons hPiece, bodyStatements_append_cons hPiece']
    exact .cons (respaced_trim hFirst) (ih hPieces hLater (signs_eq_iff.mp hLater).1)

end Text

end NodeScaffold
