import NodeScaffold.Proofs.DelimitedSpans
import NodeScaffold.Proofs.FieldLines

/-! # The grammar of headers

A phrase is the run of spans that the grammar of headers asks for, and it tells all of a header but
what follows the opening brace. A line has a header exactly if a phrase stands on it. The header is
that of the leftmost phrase, and its body is cut out of the line at the byte where the phrase stops.
-/
namespace NodeScaffold
set_option autoImplicit false

namespace Header

/-- The spans of a header: the keyword, the name, perhaps a colon and the base, and an opening brace
or a semicolon. -/
structure Phrase where
  keyword : Span
  name : Span
  base? : Option (Span × Span)
  ending : Span
  keyword_kind : keyword.kind = .structWord
  name_kind : name.kind = .ident
  base_kinds : ∀ part ∈ base?, part.1.kind = .colon ∧ part.2.kind = .ident
  ending_kind : ending.kind = .braceOpen ∨ ending.kind = .semicolon

namespace Phrase

def baseSpans (phrase : Phrase) : List Span :=
  match phrase.base? with
  | some (colon, base) => [colon, base]
  | none => []

def spans (phrase : Phrase) : List Span :=
  phrase.keyword :: phrase.name :: (phrase.baseSpans ++ [phrase.ending])

def header (phrase : Phrase) (after : Text) : Header where
  name := phrase.name.lexeme
  base? := phrase.base?.map fun part => part.2.lexeme
  body := if phrase.ending.kind = .braceOpen then after.trim else []

/-- A phrase stands on a line, and none starts further left. -/
structure LeftmostIn (phrase : Phrase) (t : Text) : Prop where
  stands : phrase.spans <:+: (TokenLine.ofText t).spans
  leftmost : ∀ other : Phrase, other.spans <:+: (TokenLine.ofText t).spans →
    phrase.keyword.start ≤ other.keyword.start

/-- The header that a phrase makes of a line, which is cut where the phrase stops. -/
def CutFrom (phrase : Phrase) (t : Text) (header : Header) : Prop :=
  ∃ upTo after, t = upTo ++ after ∧ upTo.byteSize = phrase.ending.stop ∧
    header = phrase.header after

structure SpelledIn (phrase : Phrase) (t : Text) (header : Header) : Prop where
  name_matches : TokenKind.ident.Matches header.name
  base_matches : ∀ base ∈ header.base?, TokenKind.ident.Matches base
  base_none_iff : header.base? = none ↔ ∀ span ∈ phrase.spans, span.kind ≠ .colon
  name_stands : ∃ before after, t = before ++ header.name ++ after ∧
    before.byteSize = phrase.name.start
  base_follows : ∀ base ∈ header.base?, ∃ before between after,
    t = before ++ header.name ++ between ++ base ++ after ∧ before.byteSize = phrase.name.start
  body_of_semicolon : phrase.ending.kind = .semicolon → header.body = []
  body_of_brace : phrase.ending.kind = .braceOpen → ∃ upTo front back,
    t = upTo ++ '\x7b' :: (front ++ header.body ++ back) ∧ upTo.byteSize = phrase.ending.start ∧
      ∀ c ∈ front ++ back, Text.isBlank c

end Phrase

/-! ## The phrase at the head of a line -/

/-- A run of tokens that starts with a phrase has the header of the phrase. -/
theorem atHead?_of_spansFrom_eq {offset : Nat} {tokens : List Token} {phrase : Phrase}
    {later : List Span} (h : TokenLine.spansFrom offset tokens = phrase.spans ++ later)
    (rest : Text) :
    atHead? ⟨tokens, rest⟩ = some
      (phrase.header (TokenLine.text ⟨tokens.drop phrase.spans.length, rest⟩)) := by
  obtain ⟨first, last, rfl, hFirst, -⟩ := TokenLine.exists_of_spansFrom_eq_append h
  -- a span keeps the kind and the lexeme of its token, so the tokens are known up to their gaps
  have hPairs := (TokenLine.map_spansFrom offset first).symm
  rw [hFirst] at hPairs
  obtain ⟨⟨_, _, _, _⟩, ⟨_, _, _, _⟩, base?, ⟨_, _, _, _⟩, hKeyword, hName, hBase, hEnding⟩ := phrase
  cases hKeyword
  cases hName
  cases base? with
  | none =>
    simp only [Phrase.spans, Phrase.baseSpans, List.nil_append, List.map_cons, List.map_nil,
      List.map_eq_cons_iff, List.map_eq_nil_iff, Prod.mk.injEq] at hPairs
    obtain ⟨⟨_, _, _⟩, _, rfl, ⟨rfl, rfl⟩, ⟨_, _, _⟩, _, rfl, ⟨rfl, rfl⟩, ⟨_, _, _⟩, _, rfl,
      ⟨rfl, rfl⟩, rfl⟩ := hPairs
    rcases hEnding with hEnding | hEnding
    · cases hEnding
      rfl
    · cases hEnding
      rfl
  | some part =>
    obtain ⟨⟨_, _, _, _⟩, ⟨_, _, _, _⟩⟩ := part
    obtain ⟨hColon, hIdent⟩ := hBase _ rfl
    cases hColon
    cases hIdent
    simp only [Phrase.spans, Phrase.baseSpans, List.cons_append, List.nil_append, List.map_cons,
      List.map_nil, List.map_eq_cons_iff, List.map_eq_nil_iff, Prod.mk.injEq] at hPairs
    obtain ⟨⟨_, _, _⟩, _, rfl, ⟨rfl, rfl⟩, ⟨_, _, _⟩, _, rfl, ⟨rfl, rfl⟩, ⟨_, _, _⟩, _, rfl,
      ⟨rfl, rfl⟩, ⟨_, _, _⟩, _, rfl, ⟨rfl, rfl⟩, ⟨_, _, _⟩, _, rfl, ⟨rfl, rfl⟩, rfl⟩ := hPairs
    rcases hEnding with hEnding | hEnding
    · cases hEnding
      rfl
    · cases hEnding
      rfl

/-- A run of tokens that has a header starts with a phrase. -/
theorem exists_spansFrom_eq_of_atHead? {tokens : List Token} {rest : Text} {header : Header}
    (h : atHead? ⟨tokens, rest⟩ = some header) (offset : Nat) :
    ∃ (phrase : Phrase) (later : List Span),
      TokenLine.spansFrom offset tokens = phrase.spans ++ later := by
  unfold atHead? at h
  dsimp only at h
  split at h
  case h_5 => cases h
  case h_1 => exact ⟨⟨_, _, some (_, _), _, rfl, rfl, by simp, .inl rfl⟩, _, rfl⟩
  case h_2 => exact ⟨⟨_, _, some (_, _), _, rfl, rfl, by simp, .inr rfl⟩, _, rfl⟩
  case h_3 => exact ⟨⟨_, _, none, _, rfl, rfl, by simp, .inl rfl⟩, _, rfl⟩
  case h_4 => exact ⟨⟨_, _, none, _, rfl, rfl, by simp, .inr rfl⟩, _, rfl⟩

end Header

/-! ## The phrases of a line -/

theorem TokenLine.drop_spansFrom (offset : Nat) (tokens : List Token) (n : Nat) :
    (spansFrom offset tokens).drop n =
      spansFrom (offset + (text ⟨tokens.take n, []⟩).byteSize) (tokens.drop n) := by
  induction tokens generalizing offset n with
  | nil => simp [spansFrom]
  | cons token tokens ih =>
    cases n with
    | zero => simp [text]
    | succ n => simp [spansFrom, ih, text_cons, Token.text, Nat.add_assoc]

theorem isInfix_iff_exists_drop {α : Type} {l l' : List α} : l <:+: l' ↔ ∃ n, l <+: l'.drop n := by
  constructor
  · rintro ⟨before, after, rfl⟩
    exact ⟨before.length, after, by simp⟩
  · rintro ⟨n, h⟩
    exact h.isInfix.trans (List.drop_suffix n l').isInfix

namespace Header

namespace Phrase
variable {phrase : Phrase} {t : Text} {n : Nat}

theorem getElem?_keyword (h : phrase.spans <+: (TokenLine.ofText t).spans.drop n) :
    (TokenLine.ofText t).spans[n]? = some phrase.keyword := by
  obtain ⟨later, hLater⟩ := h
  have hFirst := congrArg (·[0]?) hLater
  simpa [spans] using hFirst.symm

theorem getElem?_ending (h : phrase.spans <+: (TokenLine.ofText t).spans.drop n) :
    (TokenLine.ofText t).spans[n + (phrase.baseSpans.length + 2)]? = some phrase.ending := by
  obtain ⟨later, hLater⟩ := h
  rw [← List.getElem?_drop, ← hLater]
  simp [spans]

/-- The tokens of a phrase reach to where it stops. -/
theorem byteSize_text_take (h : phrase.spans <+: (TokenLine.ofText t).spans.drop n) :
    (TokenLine.text ⟨(TokenLine.ofText t).tokens.take (n + phrase.spans.length), []⟩).byteSize =
      phrase.ending.stop := by
  have hEnding := getElem?_ending h
  have hLength : (TokenLine.ofText t).spans.length = (TokenLine.ofText t).tokens.length := by
    have hPairs := congrArg List.length (TokenLine.map_spansFrom 0 (TokenLine.ofText t).tokens)
    rwa [List.length_map, List.length_map] at hPairs
  obtain ⟨hLt, -⟩ := List.getElem?_eq_some_iff.mp hEnding
  rw [hLength] at hLt
  have hStop := TokenLine.stop_spansFrom hLt 0
  rw [← TokenLine.spans, hEnding, Option.map_some, Nat.zero_add] at hStop
  have hSpans : phrase.spans.length = phrase.baseSpans.length + 2 + 1 := by simp [spans]
  rw [hSpans, ← Nat.add_assoc]
  exact (Option.some.inj hStop).symm

theorem cutFrom_of_drop (h : phrase.spans <+: (TokenLine.ofText t).spans.drop n) :
    phrase.CutFrom t (phrase.header (TokenLine.text
      ⟨(TokenLine.ofText t).tokens.drop (n + phrase.spans.length), (TokenLine.ofText t).rest⟩)) := by
  refine ⟨_, _, ?_, byteSize_text_take h, rfl⟩
  rw [TokenLine.text_take_append_text_drop, TokenLine.text_ofText]

theorem CutFrom.eq {header header' : Header} (h : phrase.CutFrom t header)
    (h' : phrase.CutFrom t header') : header = header' := by
  obtain ⟨upTo, after, rfl, hSize, rfl⟩ := h
  obtain ⟨upTo', after', hText, hSize', rfl⟩ := h'
  have hUpTo : upTo = upTo' := Text.eq_of_byteSize_eq hText (hSize.trans hSize'.symm)
  subst hUpTo
  rw [List.append_cancel_left hText]

theorem start_lt_start {other : Phrase} {m : Nat}
    (h : phrase.spans <+: (TokenLine.ofText t).spans.drop n)
    (hOther : other.spans <+: (TokenLine.ofText t).spans.drop m) (hLt : n < m) :
    phrase.keyword.start < other.keyword.start := by
  have hRead : ReadByRules 0 t (TokenLine.ofText t).spans := TokenLine.readByRules_ofText 0 t
  obtain ⟨hn, hKeyword⟩ := List.getElem?_eq_some_iff.mp (getElem?_keyword h)
  obtain ⟨hm, hKeyword'⟩ := List.getElem?_eq_some_iff.mp (getElem?_keyword hOther)
  have hStop := List.pairwise_iff_getElem.mp hRead.pairwise_stop_le_start n m hn hm hLt
  have hStart := hRead.start_lt_stop _ (List.getElem_mem hn)
  rw [hKeyword, hKeyword'] at hStop
  rw [hKeyword] at hStart
  omega

end Phrase

variable {t : Text} {header : Header}

/-- What is found at a token is a phrase that starts with it. -/
theorem atHead?_drop_eq_some_iff {n : Nat} :
    atHead? ⟨(TokenLine.ofText t).tokens.drop n, (TokenLine.ofText t).rest⟩ = some header ↔
      ∃ phrase : Phrase, phrase.spans <+: (TokenLine.ofText t).spans.drop n ∧
        phrase.CutFrom t header := by
  have hHead (phrase : Phrase) (h : phrase.spans <+: (TokenLine.ofText t).spans.drop n) :
      atHead? ⟨(TokenLine.ofText t).tokens.drop n, (TokenLine.ofText t).rest⟩ =
        some (phrase.header (TokenLine.text ⟨(TokenLine.ofText t).tokens.drop
          (n + phrase.spans.length), (TokenLine.ofText t).rest⟩)) := by
    obtain ⟨later, hLater⟩ := h
    rw [TokenLine.spans, TokenLine.drop_spansFrom] at hLater
    rw [atHead?_of_spansFrom_eq hLater.symm, List.drop_drop]
  constructor
  · intro h
    obtain ⟨phrase, later, hSpans⟩ := exists_spansFrom_eq_of_atHead? h
      (0 + (TokenLine.text ⟨(TokenLine.ofText t).tokens.take n, []⟩).byteSize)
    rw [← TokenLine.drop_spansFrom] at hSpans
    have hPrefix : phrase.spans <+: (TokenLine.ofText t).spans.drop n := ⟨later, hSpans.symm⟩
    refine ⟨phrase, hPrefix, ?_⟩
    rw [Option.some.inj (h.symm.trans (hHead phrase hPrefix))]
    exact Phrase.cutFrom_of_drop hPrefix
  · rintro ⟨phrase, hPrefix, hCut⟩
    rw [hHead phrase hPrefix, hCut.eq (Phrase.cutFrom_of_drop hPrefix)]

theorem find?_ofText_eq_some_iff :
    find? (TokenLine.ofText t) = some header ↔
      ∃ phrase : Phrase, phrase.LeftmostIn t ∧ phrase.CutFrom t header := by
  rw [find?, search_eq_some_iff]
  constructor
  · rintro ⟨n, hLeft, hHead⟩
    obtain ⟨phrase, hPrefix, hCut⟩ := atHead?_drop_eq_some_iff.mp hHead
    refine ⟨phrase, ⟨isInfix_iff_exists_drop.mpr ⟨n, hPrefix⟩, ?_⟩, hCut⟩
    intro other hOther
    obtain ⟨m, hOther⟩ := isInfix_iff_exists_drop.mp hOther
    obtain hLt | rfl | hGt := Nat.lt_trichotomy n m
    · exact Nat.le_of_lt (Phrase.start_lt_start hPrefix hOther hLt)
    · have hSame := (Phrase.getElem?_keyword hPrefix).symm.trans (Phrase.getElem?_keyword hOther)
      rw [Option.some.inj hSame]
    · have hSome := atHead?_drop_eq_some_iff.mpr ⟨other, hOther, Phrase.cutFrom_of_drop hOther⟩
      rw [hLeft m hGt] at hSome
      cases hSome
  · rintro ⟨phrase, ⟨hStands, hLeftmost⟩, hCut⟩
    obtain ⟨n, hPrefix⟩ := isInfix_iff_exists_drop.mp hStands
    refine ⟨n, fun m hm => ?_, atHead?_drop_eq_some_iff.mpr ⟨phrase, hPrefix, hCut⟩⟩
    -- a header further left would be that of a phrase further left
    by_contra hSome
    obtain ⟨header', hHead⟩ := Option.ne_none_iff_exists'.mp hSome
    obtain ⟨other, hOther, -⟩ := atHead?_drop_eq_some_iff.mp hHead
    have hLe := hLeftmost other (isInfix_iff_exists_drop.mpr ⟨m, hOther⟩)
    have hLt := Phrase.start_lt_start hOther hPrefix hm
    omega

theorem isSome_search_of_atHead? {tokens : List Token} {rest : Text} {header : Header} {n : Nat}
    (h : atHead? ⟨tokens.drop n, rest⟩ = some header) : (search rest tokens).isSome := by
  have hSome : ∃ n, (atHead? ⟨tokens.drop n, rest⟩).isSome := ⟨n, by rw [h]; rfl⟩
  obtain ⟨first, hFirst⟩ := Option.isSome_iff_exists.mp (Nat.find_spec hSome)
  have hLeft (m : Nat) (hm : m < Nat.find hSome) : atHead? ⟨tokens.drop m, rest⟩ = none := by
    simpa using Nat.find_min hSome hm
  exact Option.isSome_iff_exists.mpr ⟨first, search_eq_some_iff.mpr ⟨_, hLeft, hFirst⟩⟩

theorem isSome_find?_ofText_iff :
    (find? (TokenLine.ofText t)).isSome ↔
      ∃ phrase : Phrase, phrase.spans <:+: (TokenLine.ofText t).spans := by
  constructor
  · intro h
    obtain ⟨header, hFind⟩ := Option.isSome_iff_exists.mp h
    obtain ⟨phrase, hLeftmost, -⟩ := find?_ofText_eq_some_iff.mp hFind
    exact ⟨phrase, hLeftmost.stands⟩
  · rintro ⟨phrase, hStands⟩
    obtain ⟨n, hPrefix⟩ := isInfix_iff_exists_drop.mp hStands
    have hHead := atHead?_drop_eq_some_iff.mpr ⟨phrase, hPrefix, Phrase.cutFrom_of_drop hPrefix⟩
    exact isSome_search_of_atHead? hHead

end Header

/-! ## The text of a phrase -/

namespace Header.Phrase
variable {phrase : Phrase} {t : Text} {header : Header}

theorem exists_word {span : Span} (h : phrase.spans <:+: (TokenLine.ofText t).spans)
    (hSpan : span ∈ phrase.spans) (hKind : span.kind = .ident) :
    TokenKind.ident.Matches span.lexeme ∧ ∃ before after, t = before ++ span.lexeme ++ after ∧
      before.byteSize = span.start ∧ (before ++ span.lexeme).byteSize = span.stop := by
  obtain ⟨before, after, hText, hStart, hStop, hMatch⟩ :=
    (TokenLine.readByRules_ofText 0 t).exists_cut (h.subset hSpan)
  have hRule := hMatch.matched (by simp [hKind])
  rw [hKind] at hRule
  rw [Nat.zero_add] at hStart hStop
  exact ⟨hRule, before, after, hText, hStart.symm, hStop.symm⟩

theorem name_mem (phrase : Phrase) : phrase.name ∈ phrase.spans := by simp [spans]

theorem base_mem {colon base : Span} (h : phrase.base? = some (colon, base)) :
    base ∈ phrase.spans := by simp [spans, baseSpans, h]

theorem stop_le_start {colon base : Span} (h : phrase.spans <:+: (TokenLine.ofText t).spans)
    (hBase : phrase.base? = some (colon, base)) : phrase.name.stop ≤ base.start := by
  have hOrder := (TokenLine.readByRules_ofText 0 t).pairwise_stop_le_start.sublist h.sublist
  simp only [spans, baseSpans, hBase, List.pairwise_cons] at hOrder
  exact hOrder.2.1 base (by simp)

theorem exists_words {colon base : Span} (h : phrase.spans <:+: (TokenLine.ofText t).spans)
    (hBase : phrase.base? = some (colon, base)) : ∃ before between after,
      t = before ++ phrase.name.lexeme ++ between ++ base.lexeme ++ after ∧
        before.byteSize = phrase.name.start := by
  obtain ⟨-, before, after, hText, hStart, hStop⟩ := exists_word h phrase.name_mem phrase.name_kind
  obtain ⟨-, before', after', hText', hStart', -⟩ :=
    exists_word h (base_mem hBase) (phrase.base_kinds _ hBase).2
  have hLe : (before ++ phrase.name.lexeme).byteSize ≤ before'.byteSize := by
    rw [hStop, hStart']
    exact stop_le_start h hBase
  rw [List.append_assoc] at hText'
  obtain ⟨between, rfl⟩ := Text.exists_eq_append_of_byteSize_le (hText.symm.trans hText') hLe
  exact ⟨before, between, after', by simpa using hText', hStart⟩

theorem base?_eq_none_iff :
    phrase.base? = none ↔ ∀ span ∈ phrase.spans, span.kind ≠ .colon := by
  cases hBase : phrase.base? with
  | none =>
    have hEnding : phrase.ending.kind ≠ .colon := by
      rcases phrase.ending_kind with hKind | hKind <;> simp [hKind]
    simp [spans, baseSpans, hBase, phrase.keyword_kind, phrase.name_kind, hEnding]
  | some part =>
    obtain ⟨colon, base⟩ := part
    have hColon : colon.kind = .colon := (phrase.base_kinds _ hBase).1
    simp [spans, baseSpans, hBase, hColon]

theorem exists_blanks_of_brace (h : phrase.spans <:+: (TokenLine.ofText t).spans)
    (hKind : phrase.ending.kind = .braceOpen) (hCut : phrase.CutFrom t header) :
    ∃ upTo front back, t = upTo ++ '\x7b' :: (front ++ header.body ++ back) ∧
      upTo.byteSize = phrase.ending.start ∧ ∀ c ∈ front ++ back, Text.isBlank c := by
  obtain ⟨upTo, after, rfl, hSize, rfl⟩ := hCut
  have hEnding : phrase.ending ∈ (TokenLine.ofText (upTo ++ after)).spans :=
    h.subset (by simp [spans])
  obtain ⟨before, after', hText, hSpan⟩ :=
    TokenLine.exists_cut_of_mark hEnding (by decide : isMark '\x7b') hKind
  have hSplit : upTo ++ after = (before ++ ['\x7b']) ++ after' := by simpa using hText
  have hUpTo : upTo = before ++ ['\x7b'] := by
    apply Text.eq_of_byteSize_eq hSplit
    rw [hSize, hSpan]
  subst hUpTo
  have hAfter : after = after' := List.append_cancel_left hSplit
  subst hAfter
  obtain ⟨front, back, hFront, hBack, hTrim⟩ := Text.exists_eq_trim_append after
  refine ⟨before, front, back, ?_, by rw [hSpan], List.forall_mem_append.mpr ⟨hFront, hBack⟩⟩
  simp only [Phrase.header, hKind, if_true]
  rw [← hTrim, hText]

theorem spelledIn (h : phrase.spans <:+: (TokenLine.ofText t).spans)
    (hCut : phrase.CutFrom t header) : phrase.SpelledIn t header where
  name_matches := by
    obtain ⟨upTo, after, -, -, rfl⟩ := hCut
    exact (exists_word h phrase.name_mem phrase.name_kind).1
  base_matches := by
    obtain ⟨upTo, after, -, -, rfl⟩ := hCut
    intro base hb
    obtain ⟨⟨colon, span⟩, hBase, rfl⟩ := Option.map_eq_some_iff.mp hb
    exact (exists_word h (base_mem hBase) (phrase.base_kinds _ hBase).2).1
  base_none_iff := by
    obtain ⟨upTo, after, -, -, rfl⟩ := hCut
    rw [← base?_eq_none_iff]
    exact Option.map_eq_none_iff
  name_stands := by
    obtain ⟨upTo, after, -, -, rfl⟩ := hCut
    obtain ⟨-, before, later, hText, hStart, -⟩ := exists_word h phrase.name_mem phrase.name_kind
    exact ⟨before, later, hText, hStart⟩
  base_follows := by
    obtain ⟨upTo, after, -, -, rfl⟩ := hCut
    intro base hb
    obtain ⟨⟨colon, span⟩, hBase, rfl⟩ := Option.map_eq_some_iff.mp hb
    exact exists_words h hBase
  body_of_semicolon := by
    obtain ⟨upTo, after, -, -, rfl⟩ := hCut
    intro hKind
    simp [Phrase.header, hKind]
  body_of_brace hKind := exists_blanks_of_brace h hKind hCut

end Header.Phrase

/-- A line has a header exactly if the grammar of headers has a phrase on it. The header is that of
the leftmost phrase: its words are the identifiers of the phrase, one behind the other, it has a base
exactly if the phrase has a colon, and its body is empty after a semicolon and otherwise all that
follows the brace, but for the blanks around it. -/
theorem Header.find?_ofText_grammar (t : Text) :
    ((find? (TokenLine.ofText t)).isSome ↔
      ∃ phrase : Phrase, phrase.spans <:+: (TokenLine.ofText t).spans) ∧
    (∀ header, find? (TokenLine.ofText t) = some header ↔
      ∃ phrase : Phrase, phrase.LeftmostIn t ∧ phrase.CutFrom t header) ∧
    ∀ (header : Header) (phrase : Phrase), phrase.LeftmostIn t → phrase.CutFrom t header →
      phrase.SpelledIn t header := by
  refine ⟨isSome_find?_ofText_iff, fun header => find?_ofText_eq_some_iff, ?_⟩
  intro header phrase hLeftmost hCut
  exact Phrase.spelledIn hLeftmost.stands hCut

/-- Behind the keyword stand the keyword, a scope sign and an access word before a header comes; a
second header follows, and the blanks around the body are no gaps. -/
def crowdedHeader : Text :=
  "struct struct A::B \x7b struct C : public D \x7b struct E : F \x7b\xa0 T x; struct G;\x0b"

theorem Header.find?_ofText_grammar_crowdedHeader :
    find? (TokenLine.ofText crowdedHeader) =
      some ⟨Text.ofString "E", some (Text.ofString "F"), Text.ofString "T x; struct G;"⟩ ∧
    ∃ phrase : Phrase, phrase.LeftmostIn crowdedHeader ∧
      phrase.CutFrom crowdedHeader
        ⟨Text.ofString "E", some (Text.ofString "F"), Text.ofString "T x; struct G;"⟩ ∧
      phrase.SpelledIn crowdedHeader
        ⟨Text.ofString "E", some (Text.ofString "F"), Text.ofString "T x; struct G;"⟩ := by
  have hFind : find? (TokenLine.ofText crowdedHeader) =
      some ⟨Text.ofString "E", some (Text.ofString "F"), Text.ofString "T x; struct G;"⟩ := by
    decide +kernel
  obtain ⟨-, hPhrase, hSpelled⟩ := find?_ofText_grammar crowdedHeader
  obtain ⟨phrase, hLeftmost, hCut⟩ := (hPhrase _).mp hFind
  exact ⟨hFind, phrase, hLeftmost, hCut, hSpelled _ phrase hLeftmost hCut⟩

end NodeScaffold
