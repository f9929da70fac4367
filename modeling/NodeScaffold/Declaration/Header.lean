import NodeScaffold.Text.Blank
import NodeScaffold.Token.Basic

/-! # Headers of declarations

A header is `struct Name`, perhaps `: Base`, and then an opening brace or a semicolon. The leftmost
place of a line where one stands counts. -/
namespace NodeScaffold
set_option autoImplicit false

/-- A recognised header. The body is the trimmed text after the opening brace, and empty for a
header that ends in a semicolon. -/
structure Header where
  name : Text
  base? : Option Text
  body : Text
deriving DecidableEq

namespace Header

def atHead? (line : TokenLine) : Option Header :=
  match line.tokens with
  | ⟨_, .structWord, _⟩ :: ⟨_, .ident, name⟩ :: ⟨_, .colon, _⟩ :: ⟨_, .ident, base⟩ ::
      ⟨_, .braceOpen, _⟩ :: after => some ⟨name, some base, (TokenLine.text ⟨after, line.rest⟩).trim⟩
  | ⟨_, .structWord, _⟩ :: ⟨_, .ident, name⟩ :: ⟨_, .colon, _⟩ :: ⟨_, .ident, base⟩ ::
      ⟨_, .semicolon, _⟩ :: _ => some ⟨name, some base, []⟩
  | ⟨_, .structWord, _⟩ :: ⟨_, .ident, name⟩ :: ⟨_, .braceOpen, _⟩ :: after =>
    some ⟨name, none, (TokenLine.text ⟨after, line.rest⟩).trim⟩
  | ⟨_, .structWord, _⟩ :: ⟨_, .ident, name⟩ :: ⟨_, .semicolon, _⟩ :: _ => some ⟨name, none, []⟩
  | _ => none

def search (rest : Text) : List Token → Option Header
  | [] => none
  | t :: ts =>
    match atHead? ⟨t :: ts, rest⟩ with
    | some header => some header
    | none => search rest ts

def find? (line : TokenLine) : Option Header := search line.rest line.tokens

theorem length_text_tail_lt {t : Token} (ts : List Token) (rest : Text) (h : t.lexeme ≠ []) :
    (TokenLine.text ⟨ts, rest⟩).length < (TokenLine.text ⟨t :: ts, rest⟩).length := by
  have hPos := List.length_pos_iff.mpr h
  simp only [TokenLine.text, List.flatMap_cons, Token.text, List.length_append]
  omega

theorem length_body_lt_of_atHead? {line : TokenLine} {header : Header}
    (hLexeme : ∀ t ∈ line.tokens, t.lexeme ≠ []) (h : atHead? line = some header) :
    header.body.length < line.text.length := by
  obtain ⟨tokens, rest⟩ := line
  unfold atHead? at h
  dsimp only at h
  split at h
  case h_5 => cases h
  all_goals
    cases h
    refine Nat.lt_of_le_of_lt ?_ (length_text_tail_lt _ rest (hLexeme _ List.mem_cons_self))
  case h_1 | h_3 =>
    refine Nat.le_trans (Text.length_trim_le _) ?_
    simp only [TokenLine.text, List.flatMap_cons, List.length_append]
    omega
  case h_2 | h_4 => exact Nat.zero_le _

/-- The body of a header is shorter than the line it stands on. -/
theorem length_body_lt_of_find? {line : TokenLine} {header : Header}
    (hLexeme : ∀ t ∈ line.tokens, t.lexeme ≠ []) (h : find? line = some header) :
    header.body.length < line.text.length := by
  obtain ⟨tokens, rest⟩ := line
  simp only [find?] at h
  induction tokens with
  | nil => cases h
  | cons t ts ih =>
    rw [search] at h
    split at h
    · next found hFound =>
      cases h
      exact length_body_lt_of_atHead? hLexeme hFound
    · have hTail := ih (fun u hu => hLexeme u (List.mem_cons_of_mem _ hu)) h
      simp only [TokenLine.text, List.flatMap_cons, List.length_append] at hTail ⊢
      omega

end Header

end NodeScaffold
