import Mathlib.Computability.RegularExpressions
import NodeScaffold.Proofs.Cuts

/-! # Rules of the tokens

Each kind of token is a regular language. A token is the longest start of what is left of a line
that belongs to one of them, and a character that no such start begins with is a token of its own.
The lexer reads exactly these tokens: the rules leave it no choice. -/
namespace NodeScaffold
set_option autoImplicit false

/-- The characters of words are among the first ones of all, and a table of these tells of them. -/
theorem forall_isWordPart {P : Char → Prop} (hTable : ∀ n : Fin 123, P (Char.ofNat n)) {c : Char}
    (h : isWordPart c) : P c := by
  have hEntry := hTable ⟨c.toNat, (toNat_of_isWordPart h).2⟩
  rwa [Char.ofNat_toNat] at hEntry

namespace Rule

def oneOf (chars : Text) : RegularExpression Char := chars.foldr (fun c rule => .char c + rule) 0

def spelled (t : Text) : RegularExpression Char := t.foldr (fun c rule => .char c * rule) 1

def run (first more : Text) : RegularExpression Char := oneOf first * (oneOf more).star

def letters : Text := "abcdefghijklmnopqrstuvwxyzABCDEFGHIJKLMNOPQRSTUVWXYZ"

def digits : Text := "0123456789"

def skipped : Text := " \t\r\n\x0c"

theorem mem_char {c : Char} {t : Text} : t ∈ (RegularExpression.char c).matches' ↔ t = [c] :=
  Iff.rfl

theorem mem_oneOf {chars t : Text} : t ∈ (oneOf chars).matches' ↔ ∃ c ∈ chars, t = [c] := by
  induction chars with
  | nil => simp [oneOf]
  | cons c chars ih =>
    have hStep : oneOf (c :: chars) = .char c + oneOf chars := rfl
    rw [hStep, RegularExpression.matches'_add, Language.mem_add, ih, mem_char]
    simp

theorem mem_spelled {t u : Text} : u ∈ (spelled t).matches' ↔ u = t := by
  induction t generalizing u with
  | nil => simp [spelled, Language.mem_one]
  | cons c t ih =>
    have hStep : spelled (c :: t) = .char c * spelled t := rfl
    rw [hStep, RegularExpression.matches'_mul, Language.mem_mul]
    constructor
    · rintro ⟨a, ha, b, hb, rfl⟩
      rw [mem_char.mp ha, ih.mp hb]
      rfl
    · rintro rfl
      exact ⟨[c], rfl, t, ih.mpr rfl, rfl⟩

theorem mem_star_oneOf {chars t : Text} :
    t ∈ (oneOf chars).star.matches' ↔ ∀ c ∈ t, c ∈ chars := by
  rw [RegularExpression.matches'_star, Language.mem_kstar]
  constructor
  · rintro ⟨parts, rfl, hParts⟩ c hc
    obtain ⟨part, hPart, hc⟩ := List.mem_flatten.mp hc
    obtain ⟨d, hd, rfl⟩ := mem_oneOf.mp (hParts part hPart)
    rwa [List.mem_singleton.mp hc]
  · intro h
    refine ⟨t.map fun c => [c], (List.flatMap_singleton' t).symm, fun part hPart => ?_⟩
    obtain ⟨c, hc, rfl⟩ := List.mem_map.mp hPart
    exact mem_oneOf.mpr ⟨c, h c hc, rfl⟩

theorem mem_run {first more t : Text} : t ∈ (run first more).matches' ↔
    ∃ c rest, t = c :: rest ∧ c ∈ first ∧ ∀ d ∈ rest, d ∈ more := by
  rw [run, RegularExpression.matches'_mul, Language.mem_mul]
  constructor
  · rintro ⟨a, ha, b, hb, rfl⟩
    obtain ⟨c, hc, rfl⟩ := mem_oneOf.mp ha
    exact ⟨c, b, rfl, hc, mem_star_oneOf.mp hb⟩
  · rintro ⟨c, rest, rfl, hc, hRest⟩
    exact ⟨[c], mem_oneOf.mpr ⟨c, hc, rfl⟩, rest, mem_star_oneOf.mpr hRest, rfl⟩

theorem mem_letters {c : Char} : c ∈ letters ↔ c.isAlpha := by
  have hAll : ∀ c ∈ letters, Char.isAlpha c :=
    List.all_eq_true.mp (by with_unfolding_all decide)
  constructor
  · exact hAll c
  · intro hAlpha
    have hPart : isWordPart c := by simp [isWordPart, Char.isAlphanum, hAlpha]
    exact forall_isWordPart (P := fun c => c.isAlpha → c ∈ letters)
      (by with_unfolding_all decide) hPart hAlpha

theorem mem_digits {c : Char} : c ∈ digits ↔ c.isDigit := by
  have hAll : ∀ c ∈ digits, Char.isDigit c :=
    List.all_eq_true.mp (by with_unfolding_all decide)
  constructor
  · exact hAll c
  · intro hDigit
    have hPart : isWordPart c := by simp [isWordPart, Char.isAlphanum, hDigit]
    exact forall_isWordPart (P := fun c => c.isDigit → c ∈ digits)
      (by with_unfolding_all decide) hPart hDigit

theorem mem_skipped {c : Char} : c ∈ skipped ↔ isGap c := by
  simp [skipped, Text.ofString, isGap, or_assoc]

end Rule

namespace TokenKind

def rule : TokenKind → RegularExpression Char
  | structWord => Rule.spelled "struct"
  | colonColon => Rule.spelled "::"
  | colon => Rule.spelled ":"
  | semicolon => Rule.spelled ";"
  | comma => Rule.spelled ","
  | braceOpen => Rule.spelled "\x7b"
  | braceClose => Rule.spelled "\x7d"
  | parenOpen => Rule.spelled "("
  | parenClose => Rule.spelled ")"
  | less => Rule.spelled "<"
  | greater => Rule.spelled ">"
  | star => Rule.spelled "*"
  | ampersand => Rule.spelled "&"
  | equals => Rule.spelled "="
  | ident => Rule.run (Rule.letters ++ ['_']) (Rule.letters ++ '_' :: Rule.digits)
  | number => Rule.run Rule.digits (Rule.digits ++ Rule.letters ++ ['_', '.', '\x27'])
  | unknown => 0

def Matches (kind : TokenKind) (t : Text) : Prop := t ∈ kind.rule.matches'

theorem matches_ident {t : Text} : ident.Matches t ↔ isWord t := by
  rw [Matches, rule, Rule.mem_run]
  cases t with
  | nil => simp [isWord]
  | cons c rest =>
    simp [isWord, isWordStart, isWordPart, Char.isAlphanum, Rule.mem_letters, Rule.mem_digits,
      or_assoc, or_comm]

theorem matches_structWord {t : Text} : structWord.Matches t ↔ t = Text.ofString "struct" :=
  Rule.mem_spelled

theorem matches_number {t : Text} : number.Matches t ↔
    ∃ c rest, t = c :: rest ∧ c.isDigit ∧ ∀ d ∈ rest, isNumberPart d := by
  have hMore (d : Char) : d ∈ Rule.digits ++ Rule.letters ++ ['_', '.', '\x27'] ↔
      isNumberPart d := by
    simp [isNumberPart, Char.isAlphanum, Rule.mem_letters, Rule.mem_digits, or_assoc,
      or_left_comm]
  simp only [Matches, rule, Rule.mem_run, Rule.mem_digits, hMore]

theorem matches_colonColon {t : Text} : colonColon.Matches t ↔ t = [':', ':'] := by
  rw [Matches, rule, Rule.mem_spelled, Text.ofString]
  rfl

theorem matches_markKind {c : Char} (h : markKind c ≠ unknown) {t : Text} :
    (markKind c).Matches t ↔ t = [c] := by
  unfold markKind at h ⊢
  split
  case h_13 => simp at h
  all_goals
    rw [Matches, rule, Rule.mem_spelled, Text.ofString]
    rfl

theorem not_matches_unknown (t : Text) : ¬ unknown.Matches t := id

inductive Shape : TokenKind → Text → Prop
  | word {t : Text} (h : isWord t) : Shape ident t
  | keyword {t : Text} (h : t = Text.ofString "struct") : Shape structWord t
  | number {c : Char} {more : Text} (hFirst : c.isDigit) (hMore : ∀ d ∈ more, isNumberPart d) :
      Shape number (c :: more)
  | scope : Shape colonColon [':', ':']
  | mark (c : Char) (h : markKind c ≠ unknown) : Shape (markKind c) [c]

theorem shape_of_matches {kind : TokenKind} {t : Text} (h : kind.Matches t) : Shape kind t := by
  have hMark (c : Char) (hKind : markKind c ≠ unknown) (hMatch : (markKind c).Matches t) :
      Shape (markKind c) t := by
    rw [(matches_markKind hKind).mp hMatch]
    exact .mark c hKind
  cases kind with
  | ident => exact .word (matches_ident.mp h)
  | structWord => exact .keyword (matches_structWord.mp h)
  | number =>
    obtain ⟨c, more, rfl, hFirst, hMore⟩ := matches_number.mp h
    exact .number hFirst hMore
  | colonColon =>
    rw [matches_colonColon.mp h]
    exact .scope
  | unknown => exact absurd h (not_matches_unknown t)
  | colon => exact hMark ':' (by decide) h
  | semicolon => exact hMark ';' (by decide) h
  | comma => exact hMark ',' (by decide) h
  | braceOpen => exact hMark '\x7b' (by decide) h
  | braceClose => exact hMark '\x7d' (by decide) h
  | parenOpen => exact hMark '(' (by decide) h
  | parenClose => exact hMark ')' (by decide) h
  | less => exact hMark '<' (by decide) h
  | greater => exact hMark '>' (by decide) h
  | star => exact hMark '*' (by decide) h
  | ampersand => exact hMark '&' (by decide) h
  | equals => exact hMark '=' (by decide) h

end TokenKind

/-! ## The longest match -/

/-- A lexeme is what the rules make of the text that it starts. No start of that text that a rule
matches is longer; where none is matched at all, one character is taken as unknown. The keyword
matches two rules, of which its own wins. -/
structure LongestMatch (kind : TokenKind) (lexeme following : Text) : Prop where
  starts : ∀ c ∈ lexeme.head?, c ∉ Rule.skipped
  longest : ∀ (other : TokenKind) (u : Text), u <+: lexeme ++ following → other.Matches u →
    u.length ≤ lexeme.length
  matched : kind ≠ .unknown → kind.Matches lexeme
  alone : kind = .unknown → lexeme.length = 1 ∧
    ∀ (other : TokenKind) (u : Text), u <+: lexeme ++ following → ¬ other.Matches u
  keyword : kind = .structWord ↔ lexeme = Text.ofString "struct"

theorem length_le_takeWhile_of_isPrefix {p : Char → Bool} {t u : Text} (h : u <+: t)
    (hAll : ∀ c ∈ u, p c) : u.length ≤ (t.takeWhile p).length := by
  obtain ⟨v, rfl⟩ := h
  rw [List.takeWhile_append_of_pos hAll, List.length_append]
  omega

theorem isWordStart_of_isDigit {c : Char} (h : c.isDigit) : isWordStart c = false := by
  have hPart : isWordPart c := by simp [isWordPart, Char.isAlphanum, h]
  exact forall_isWordPart (P := fun c => c.isDigit → isWordStart c = false) (by decide) hPart h

theorem isWord_keyword : isWord (Text.ofString "struct") := by with_unfolding_all decide

theorem plain_of_markKind {c : Char} (h : markKind c ≠ .unknown) :
    isWordStart c = false ∧ c.isDigit = false := by
  unfold markKind at h
  split at h
  case h_13 => exact absurd rfl h
  all_goals decide

namespace Lexed
variable {c : Char} {t : Text}

theorem ofText_word (h : isWordStart c) : ofText c t =
    ⟨wordKind (c :: t.takeWhile isWordPart), t.takeWhile isWordPart, t.dropWhile isWordPart⟩ := by
  rw [ofText, if_pos h]

theorem kind_ofText_of_isWord (h : isWord (c :: t)) : (ofText c t).kind = wordKind (c :: t) := by
  simp only [isWord, Bool.and_eq_true, List.all_eq_true] at h
  rw [ofText_word h.1, List.takeWhile_eq_self_iff.mpr h.2]

theorem ofText_number (h : c.isDigit) :
    ofText c t = ⟨.number, t.takeWhile isNumberPart, t.dropWhile isNumberPart⟩ := by
  rw [ofText, if_neg (by simp [isWordStart_of_isDigit h]), if_pos h]

theorem ofText_scope (t : Text) : ofText ':' (':' :: t) = ⟨.colonColon, [':'], t⟩ := rfl

theorem ofText_mark (hWord : isWordStart c = false) (hDigit : c.isDigit = false)
    (hScope : c = ':' → t.head? ≠ some ':') : ofText c t = ⟨markKind c, [], t⟩ := by
  rw [ofText, if_neg (by simp [hWord]), if_neg (by simp [hDigit]), if_neg]
  simpa using hScope

/-- The shapes of a lexeme. -/
theorem ofText_cases (c : Char) (t : Text) :
    isWordStart c ∨ c.isDigit ∨ (∃ u, c = ':' ∧ t = ':' :: u) ∨
      ofText c t = ⟨markKind c, [], t⟩ := by
  by_cases hWord : isWordStart c
  · exact .inl hWord
  by_cases hDigit : c.isDigit
  · exact .inr (.inl hDigit)
  by_cases hScope : c = ':' ∧ t.head? = some ':'
  · obtain ⟨rest, rfl⟩ := List.head?_eq_some_iff.mp hScope.2
    exact .inr (.inr (.inl ⟨rest, hScope.1, rfl⟩))
  · refine .inr (.inr (.inr (ofText_mark (by simpa using hWord) (by simpa using hDigit) ?_)))
    exact fun hc hHead => hScope ⟨hc, hHead⟩

/-- A lexeme is at least as long as every start of the text that a rule matches. -/
theorem length_le_of_matches {kind : TokenKind} {u : Text} (hPrefix : u <+: c :: t)
    (hMatch : kind.Matches u) :
    (ofText c t).kind ≠ .unknown ∧ u.length ≤ (c :: (ofText c t).more).length := by
  have hWord (hu : isWord u) :
      (ofText c t).kind ≠ .unknown ∧ u.length ≤ (c :: (ofText c t).more).length := by
    cases u with
    | nil => cases hu
    | cons d v =>
      obtain ⟨rfl, hRest⟩ := List.cons_prefix_cons.mp hPrefix
      simp only [isWord, Bool.and_eq_true, List.all_eq_true] at hu
      rw [ofText_word hu.1]
      refine ⟨?_, Nat.succ_le_succ (length_le_takeWhile_of_isPrefix hRest hu.2)⟩
      simp only [wordKind]
      split <;> simp
  cases TokenKind.shape_of_matches hMatch with
  | word hu => exact hWord hu
  | keyword hu =>
    exact hWord (hu ▸ isWord_keyword)
  | number hFirst hMore =>
    obtain ⟨rfl, hRest⟩ := List.cons_prefix_cons.mp hPrefix
    rw [ofText_number hFirst]
    exact ⟨by simp, Nat.succ_le_succ (length_le_takeWhile_of_isPrefix hRest hMore)⟩
  | scope =>
    obtain ⟨rfl, rest, rfl⟩ := List.cons_prefix_cons.mp hPrefix
    exact ⟨by simp [ofText_scope], Nat.le_refl 2⟩
  | mark d hKind =>
    obtain ⟨rfl, -⟩ := List.cons_prefix_cons.mp hPrefix
    refine ⟨?_, Nat.succ_le_succ (Nat.zero_le _)⟩
    obtain ⟨hStart, hDigit⟩ := plain_of_markKind hKind
    obtain h | h | ⟨v, rfl, rfl⟩ | h := ofText_cases d t
    · simp [hStart] at h
    · simp [hDigit] at h
    · simp [ofText_scope]
    · rwa [h]

theorem matches_ofText (h : (ofText c t).kind ≠ .unknown) :
    (ofText c t).kind.Matches (c :: (ofText c t).more) := by
  obtain hStart | hDigit | ⟨u, rfl, rfl⟩ | hMark := ofText_cases c t
  · rw [ofText_word hStart, wordKind]
    split
    · next hKeyword => exact TokenKind.matches_structWord.mpr hKeyword
    · apply TokenKind.matches_ident.mpr
      simp only [isWord, hStart, Bool.true_and, List.all_eq_true]
      exact fun d hd => List.mem_takeWhile_imp hd
  · rw [ofText_number hDigit]
    exact TokenKind.matches_number.mpr
      ⟨c, _, rfl, hDigit, fun d hd => List.mem_takeWhile_imp hd⟩
  · exact TokenKind.matches_colonColon.mpr rfl
  · rw [hMark] at h ⊢
    exact (TokenKind.matches_markKind h).mpr rfl

theorem kind_eq_structWord_iff : (ofText c t).kind = .structWord ↔
    c :: (ofText c t).more = Text.ofString "struct" := by
  constructor
  · intro hKind
    have hMatch := matches_ofText (c := c) (t := t) (by simp [hKind])
    rw [hKind] at hMatch
    exact TokenKind.matches_structWord.mp hMatch
  · intro hKeyword
    have hStart : isWordStart c := by
      have hWord : isWord (c :: (ofText c t).more) := hKeyword ▸ isWord_keyword
      simp only [isWord, Bool.and_eq_true] at hWord
      exact hWord.1
    rw [ofText_word hStart] at hKeyword ⊢
    exact if_pos hKeyword

/-- The lexer takes what the rules say. -/
theorem longestMatch_ofText (h : isGap c = false) :
    LongestMatch (ofText c t).kind (c :: (ofText c t).more) (ofText c t).rest where
  starts := by
    intro d hd
    cases hd
    simp [Rule.mem_skipped, h]
  longest := by
    intro other u hPrefix hMatch
    rw [List.cons_append, more_append_rest] at hPrefix
    exact (length_le_of_matches hPrefix hMatch).2
  matched := matches_ofText
  alone := by
    intro hKind
    constructor
    · obtain hStart | hDigit | ⟨u, rfl, rfl⟩ | hMark := ofText_cases c t
      · rw [ofText_word hStart, wordKind] at hKind
        split at hKind <;> cases hKind
      · rw [ofText_number hDigit] at hKind
        cases hKind
      · cases hKind
      · rw [hMark]
        rfl
    · intro other u hPrefix hMatch
      rw [List.cons_append, more_append_rest] at hPrefix
      exact (length_le_of_matches hPrefix hMatch).1 hKind
  keyword := kind_eq_structWord_iff

/-- A text that a rule matches is read under the kind of that rule, but for the keyword. -/
theorem kind_eq_of_matches {kind : TokenKind} (hMatch : kind.Matches (c :: t))
    (hKeyword : kind = .structWord ↔ c :: t = Text.ofString "struct") :
    (ofText c t).kind = kind := by
  cases TokenKind.shape_of_matches hMatch with
  | word hWord =>
    rw [kind_ofText_of_isWord hWord]
    exact if_neg fun h => absurd (hKeyword.mpr h) (by simp)
  | keyword hText =>
    rw [kind_ofText_of_isWord (hText ▸ isWord_keyword)]
    exact if_pos hText
  | number hFirst _ => rw [ofText_number hFirst]
  | scope => rfl
  | mark _ hKind =>
    obtain ⟨hStart, hDigit⟩ := plain_of_markKind hKind
    rw [ofText_mark hStart hDigit (by simp)]

end Lexed

/-- The rules leave the lexer no choice. -/
theorem LongestMatch.ofText_eq {kind : TokenKind} {c : Char} {more following : Text}
    (h : LongestMatch kind (c :: more) following) :
    Lexed.ofText c (more ++ following) = ⟨kind, more, following⟩ := by
  have hOwn : LongestMatch (Lexed.ofText c (more ++ following)).kind
      (c :: (Lexed.ofText c (more ++ following)).more)
      (Lexed.ofText c (more ++ following)).rest := by
    apply Lexed.longestMatch_ofText
    simpa [Rule.mem_skipped] using h.starts c rfl
  have hJoin := Lexed.more_append_rest c (more ++ following)
  generalize Lexed.ofText c (more ++ following) = own at hOwn hJoin
  obtain ⟨ownKind, ownMore, ownRest⟩ := own
  dsimp only at hOwn hJoin
  have hText : c :: ownMore ++ ownRest = c :: more ++ following := congrArg (c :: ·) hJoin
  have hOwnPrefix : c :: ownMore <+: c :: more ++ following := ⟨ownRest, hText⟩
  have hPrefix : c :: more <+: c :: ownMore ++ ownRest := ⟨following, hText.symm⟩
  by_cases hKind : kind = .unknown
  · obtain ⟨hLength, hNone⟩ := h.alone hKind
    have hOwnKind : ownKind = .unknown := by
      by_contra hKnown
      exact hNone ownKind _ hOwnPrefix (hOwn.matched hKnown)
    have hMore : more = [] := by simpa using hLength
    have hOwnMore : ownMore = [] := by simpa using (hOwn.alone hOwnKind).1
    subst hKind hOwnKind hMore hOwnMore
    simpa using hJoin
  · have hOwnKind : ownKind ≠ .unknown := fun hUnknown =>
      (hOwn.alone hUnknown).2 kind _ hPrefix (h.matched hKind)
    have hLength : ownMore.length = more.length := by
      have hLong := h.longest ownKind _ hOwnPrefix (hOwn.matched hOwnKind)
      have hOwnLong := hOwn.longest kind _ hPrefix (h.matched hKind)
      simp only [List.length_cons] at hLong hOwnLong
      omega
    obtain ⟨rfl, rfl⟩ := List.append_inj hJoin hLength
    have hEq := Lexed.kind_eq_of_matches (h.matched hKind) h.keyword
    have hOwnEq := Lexed.kind_eq_of_matches (hOwn.matched hOwnKind) hOwn.keyword
    rw [← hEq, hOwnEq]

end NodeScaffold
