import NodeScaffold.Proofs.Cuts
import NodeScaffold.Proofs.Runs
import NodeScaffold.Proofs.Statements

/-! # Bodies on the line of their header

A body that starts on the line of its header is read as if the line ended with the opening brace and
each statement had a line of its own with the same number. -/
namespace NodeScaffold
set_option autoImplicit false

namespace Header

/-- The leftmost header of a line starts with the token of the given index, has a base and ends in
an opening brace. -/
structure OpensBodyAt (line : TokenLine) (n : Nat) : Prop where
  leftmost : ∀ m < n, atHead? ⟨line.tokens.drop m, line.rest⟩ = none
  opening : ((line.tokens.drop n).take 5).map Token.kind =
    [.structWord, .ident, .colon, .ident, .braceOpen]

/-- Where a longer run of tokens starts with no header, a shorter one does not either. -/
theorem atHead?_eq_none_of_append {tokens more : List Token} {rest : Text}
    (h : atHead? ⟨tokens ++ more, rest⟩ = none) (rest' : Text) :
    atHead? ⟨tokens, rest'⟩ = none := by
  unfold atHead?
  dsimp only
  split
  case h_5 => rfl
  all_goals cases h

namespace OpensBodyAt
variable {line : TokenLine} {n : Nat}

theorem exists_drop_eq (h : OpensBodyAt line n) :
    ∃ gap₁ word gap₂ name gap₃ colon gap₄ base gap₅ brace,
      line.tokens.drop n = ⟨gap₁, .structWord, word⟩ :: ⟨gap₂, .ident, name⟩ ::
        ⟨gap₃, .colon, colon⟩ :: ⟨gap₄, .ident, base⟩ :: ⟨gap₅, .braceOpen, brace⟩ ::
          line.tokens.drop (n + 5) := by
  have hSplit := List.take_append_drop 5 (line.tokens.drop n)
  rw [List.drop_drop] at hSplit
  have hOpening := h.opening
  generalize (line.tokens.drop n).take 5 = opening at hSplit hOpening
  match opening, hOpening with
  | [⟨_, _, _⟩, ⟨_, _, _⟩, ⟨_, _, _⟩, ⟨_, _, _⟩, ⟨_, _, _⟩], hOpening =>
    cases hOpening
    exact ⟨_, _, _, _, _, _, _, _, _, _, hSplit.symm⟩

/-- The header is found on the line, and again on the line cut after its brace. -/
theorem exists_find?_eq (h : OpensBodyAt line n) : ∃ name base,
    find? line = some ⟨name, some base,
      (TokenLine.text ⟨line.tokens.drop (n + 5), line.rest⟩).trim⟩ ∧
    find? ⟨line.tokens.take (n + 5), []⟩ = some ⟨name, some base, []⟩ := by
  obtain ⟨_, _, _, name, _, _, _, base, _, _, hDrop⟩ := h.exists_drop_eq
  refine ⟨name, base, search_eq_some_iff.mpr ⟨n, h.leftmost, by rw [hDrop]; rfl⟩, ?_⟩
  -- the cut line is a start of the line, so it has no header further left
  have hCut (m : Nat) (hm : m < n) :
      atHead? ⟨(line.tokens.take (n + 5)).drop m, []⟩ = none := by
    have hLine := h.leftmost m hm
    rw [← List.take_append_drop (n + 5 - m) (line.tokens.drop m)] at hLine
    rw [List.drop_take]
    exact atHead?_eq_none_of_append hLine []
  refine search_eq_some_iff.mpr ⟨n, hCut, ?_⟩
  rw [List.drop_take, hDrop, Nat.add_sub_cancel_left]
  rfl

theorem lt_length (h : OpensBodyAt line n) : n + 4 < line.tokens.length := by
  have hLength := congrArg List.length h.opening
  simp only [List.length_map, List.length_take, List.length_drop, List.length_cons,
    List.length_nil] at hLength
  omega

end OpensBodyAt

end Header

theorem TokenLine.startsWith_take {line : TokenLine} {n : Nat} (hn : n ≠ 0) (rest word : Text) :
    startsWith ⟨line.tokens.take n, rest⟩ word = line.startsWith word := by
  simp only [startsWith, List.head?_take, hn, if_false]

/-- Outside of every declaration, a line with a header opens its body and reads the statements. -/
theorem Reading.read_header {conv : Conventions} {reading : Reading}
    (hMode : reading.mode = .between) (number : Nat) {t name base body : Text}
    (hMark : (TokenLine.ofText t).startsWith conv.abstractWord = false)
    (hFind : Header.find? (TokenLine.ofText t) = some ⟨name, some base, body⟩) :
    reading.read conv ⟨number, t⟩ = reading.andThen fun _ =>
      ((bodyStatements body).map fun s => (⟨number, s⟩ : Line)).foldl (read conv)
        ⟨.body { name, base, line := number }, []⟩ := by
  have hStep : Step.of conv .between ⟨number, t⟩ =
      { mode := .body { name, base, line := number }, inner := bodyStatements body } := by
    simp [Step.of, Step.between, hMark, hFind]
  rw [read, andThen, hMode, ofLine_eq, hStep]
  rfl

/-- Outside of every declaration, reading a line with a header and a body is reading the line up to
the brace and then one statement after the other, whatever these statements close or open. -/
theorem read_headerBody (conv : Conventions) {reading : Reading} (hMode : reading.mode = .between)
    (number : Nat) {t : Text} {n : Nat}
    (hMark : (TokenLine.ofText t).startsWith conv.abstractWord = false)
    (hOpens : Header.OpensBodyAt (TokenLine.ofText t) n) :
    ∃ upTo after, t = upTo ++ after ∧
      (TokenLine.ofText t).spans[n + 4]?.map Span.stop = some upTo.byteSize ∧
      (∃ name base,
        Header.find? (TokenLine.ofText t) = some ⟨name, some base, Text.trim after⟩) ∧
      AreStatements after (bodyStatements after) ∧
      reading.read conv ⟨number, t⟩ =
        ((upTo :: bodyStatements after).map fun s => (⟨number, s⟩ : Line)).foldl
          (Reading.read conv) reading := by
  obtain ⟨name, base, hFind, hFindCut⟩ := hOpens.exists_find?_eq
  have hCut := TokenLine.ofText_text_take t (n + 5)
  have hText := TokenLine.text_take_append_text_drop (TokenLine.ofText t) (n + 5)
  have hStop := TokenLine.stop_spansFrom hOpens.lt_length 0
  generalize TokenLine.text ⟨(TokenLine.ofText t).tokens.drop (n + 5), (TokenLine.ofText t).rest⟩ =
    after at hFind hText
  generalize TokenLine.text ⟨(TokenLine.ofText t).tokens.take (n + 5), []⟩ = upTo
    at hCut hText hStop
  refine ⟨upTo, after, ?_, ?_, ⟨name, base, hFind⟩, areStatements_bodyStatements after, ?_⟩
  · rw [hText, TokenLine.text_ofText]
  · rw [TokenLine.spans, hStop, Nat.zero_add]
  have hMarkCut : (TokenLine.ofText upTo).startsWith conv.abstractWord = false := by
    rw [hCut, TokenLine.startsWith_take (Nat.succ_ne_zero _), hMark]
  rw [← hCut] at hFindCut
  have hLine := Reading.read_header hMode number hMark hFind
  rw [bodyStatements_trim] at hLine
  have hHeader : reading.read conv ⟨number, upTo⟩ =
      reading.andThen fun _ => ⟨.body { name, base, line := number }, []⟩ :=
    Reading.read_header hMode number hMarkCut hFindCut
  have hRun := Reading.foldl_read_eq_andThen conv
    ((bodyStatements after).map fun s => (⟨number, s⟩ : Line))
    (reading.andThen fun _ => ⟨.body { name, base, line := number }, []⟩)
  rw [hLine, List.map_cons, List.foldl_cons, hHeader, hRun]
  simp [Reading.andThen]

/-- A line that behind its first header closes a body, declares a second node and ends in a mark. -/
def crowdedLine : Text :=
  "x; struct A : B \x7b T a; \x7d; struct C : D \x7b U b; \x7d; abstract"

theorem read_headerBody_crowdedLine :
    (TokenLine.ofText crowdedLine).startsWith Conventions.standard.abstractWord = false ∧
    Header.OpensBodyAt (TokenLine.ofText crowdedLine) 2 ∧
    ∃ upTo after, crowdedLine = upTo ++ after ∧ upTo.byteSize = 17 ∧
      Reading.read .standard {} ⟨1, crowdedLine⟩ =
        ((upTo :: bodyStatements after).map fun s => (⟨1, s⟩ : Line)).foldl
          (Reading.read .standard) {} := by
  have hMark : (TokenLine.ofText crowdedLine).startsWith Conventions.standard.abstractWord =
      false := by with_unfolding_all decide
  have hOpens : Header.OpensBodyAt (TokenLine.ofText crowdedLine) 2 := by
    constructor
    · with_unfolding_all decide
    · with_unfolding_all decide
  have hStop : (TokenLine.ofText crowdedLine).spans[6]?.map Span.stop = some 17 := by
    with_unfolding_all decide
  obtain ⟨upTo, after, hLine, hSpan, -, -, hRead⟩ :=
    @read_headerBody .standard {} rfl 1 _ _ hMark hOpens
  exact ⟨hMark, hOpens, upTo, after, hLine, Option.some.inj (hSpan.symm.trans hStop), hRead⟩

end NodeScaffold
