import NodeScaffold.Token.Basic

/-! # From text to tokens

Tokens are read from left to right, each as long as it can be. The letters and digits of
identifiers and numbers are the ASCII ones. -/
namespace NodeScaffold
set_option autoImplicit false

def isGap (c : Char) : Bool := c = ' ' || c = '\t' || c = '\r' || c = '\n' || c = '\x0c'

def isWordStart (c : Char) : Bool := c.isAlpha || c = '_'

def isWordPart (c : Char) : Bool := c.isAlphanum || c = '_'

def isNumberPart (c : Char) : Bool := c.isAlphanum || c = '_' || c = '.' || c = '\x27'

def markKind : Char → TokenKind
  | ':' => .colon
  | ';' => .semicolon
  | ',' => .comma
  | '{' => .braceOpen
  | '}' => .braceClose
  | '(' => .parenOpen
  | ')' => .parenClose
  | '<' => .less
  | '>' => .greater
  | '*' => .star
  | '&' => .ampersand
  | '=' => .equals
  | _ => .unknown

/-- The keyword is an identifier of its own kind. -/
def wordKind (word : Text) : TokenKind :=
  if word = "struct" then .structWord else .ident

/-- A lexeme at the head of a text: its kind, the characters it takes after the first one, and what
follows it. -/
structure Lexed where
  kind : TokenKind
  more : Text
  rest : Text

/-- The longest lexeme that starts with the given character. -/
def Lexed.ofText (c : Char) (t : Text) : Lexed :=
  if isWordStart c then
    let more := t.takeWhile isWordPart
    ⟨wordKind (c :: more), more, t.dropWhile isWordPart⟩
  else if c.isDigit then ⟨.number, t.takeWhile isNumberPart, t.dropWhile isNumberPart⟩
  else if c = ':' && t.head? = some ':' then ⟨.colonColon, t.take 1, t.drop 1⟩
  else ⟨markKind c, [], t⟩

theorem Lexed.more_append_rest (c : Char) (t : Text) :
    (Lexed.ofText c t).more ++ (Lexed.ofText c t).rest = t := by
  simp only [Lexed.ofText]
  split
  · exact List.takeWhile_append_dropWhile
  · split
    · exact List.takeWhile_append_dropWhile
    · split
      · exact List.take_append_drop 1 t
      · rfl

theorem Lexed.length_rest_le (c : Char) (t : Text) :
    (Lexed.ofText c t).rest.length ≤ t.length := by
  have h := congrArg List.length (Lexed.more_append_rest c t)
  simp only [List.length_append] at h
  omega

theorem length_lt_of_dropWhile_eq_cons {p : Char → Bool} {t rest : Text} {c : Char}
    (h : t.dropWhile p = c :: rest) : rest.length < t.length := by
  have hLe := (List.dropWhile_sublist (l := t) p).length_le
  rw [h] at hLe
  exact hLe

namespace TokenLine

def ofText (t : Text) : TokenLine :=
  match _h : t.dropWhile isGap with
  | [] => ⟨[], t⟩
  | c :: following =>
    let lexed := Lexed.ofText c following
    let line := ofText lexed.rest
    ⟨⟨t.takeWhile isGap, lexed.kind, c :: lexed.more⟩ :: line.tokens, line.rest⟩
termination_by t.length
decreasing_by
  exact Nat.lt_of_le_of_lt (Lexed.length_rest_le c following) (length_lt_of_dropWhile_eq_cons _h)

/-- Nothing of a line is lost in its tokens. -/
theorem text_ofText (t : Text) : (ofText t).text = t := by
  fun_induction ofText t with
  | case1 t h => simp [text]
  | case2 t c following h lexed line ih =>
    have hJoin : lexed.more ++ lexed.rest = following := Lexed.more_append_rest c following
    have hSplit := List.takeWhile_append_dropWhile (p := isGap) (l := t)
    rw [h] at hSplit
    calc
      _ = t.takeWhile isGap ++ c :: (lexed.more ++ line.text) := by simp [text, Token.text]
      _ = t := by rw [ih, hJoin, hSplit]

theorem lexeme_ne_nil_of_mem_ofText {t : Text} {token : Token} (h : token ∈ (ofText t).tokens) :
    token.lexeme ≠ [] := by
  fun_induction ofText t with
  | case1 => simp at h
  | case2 t c following _ lexed line ih =>
    rcases List.mem_cons.mp h with rfl | h
    · simp
    · exact ih h

end TokenLine

end NodeScaffold
