import NodeScaffold.Proofs.Splice

/-! # Braces and indentation

The braces that are open before a line say how far it is indented. A run of lines that keep to this
leads from one number of open braces to another, and such runs are put together end to end. Blocks
of code do not know of braces: their lines shift the depth. The two go together where a line that
shifts the depth opens or closes a brace, and no other line leaves one open. -/
namespace NodeScaffold
set_option autoImplicit false

namespace Text

/-- How many braces are open after a text, where the given number was open before; none if the text
closes one that is not open. -/
def braces? : Nat → Text → Option Nat
  | n, [] => some n
  | n, '{' :: t => braces? (n + 1) t
  | 0, '}' :: _ => none
  | n + 1, '}' :: t => braces? n t
  | n, _ :: t => braces? n t

/-- No beginning of the text closes more braces than it opens, and the whole opens as many as it
closes. -/
structure Balanced (t : Text) : Prop where
  beginnings : ∀ u, u <+: t → u.count '}' ≤ u.count '{'
  whole : t.count '}' = t.count '{'

/-- A line as it has to stand behind the given text: four blanks for each open brace, one brace less
if the line starts with a closing one, and no blanks alone. -/
structure IndentedAfter (before line : Text) : Prop where
  blank : (∀ c ∈ line, isBlank c) → line = []
  written : (∃ c ∈ line, isBlank c = false) → ∃ depth,
    line.takeWhile isBlank = indentation depth ∧
    depth + (if (line.dropWhile isBlank).head? = some '}' then 1 else 0) + before.count '}' =
      before.count '{'

theorem braces?_opening (n : Nat) (t : Text) : braces? n ('{' :: t) = braces? (n + 1) t := by
  cases n <;> rfl

theorem braces?_closing (n : Nat) (t : Text) : braces? (n + 1) ('}' :: t) = braces? n t := rfl

theorem braces?_cons {c : Char} (hOpening : c ≠ '{') (hClosing : c ≠ '}') (n : Nat) (t : Text) :
    braces? n (c :: t) = braces? n t := by
  rw [braces?]
  · exact fun h => absurd h hOpening
  · exact fun _ h => absurd h hClosing
  · exact fun _ _ h => absurd h hClosing

theorem braces?_append (n : Nat) (t u : Text) :
    braces? n (t ++ u) = (braces? n t).bind (braces? · u) := by
  fun_induction braces? n t with
  | case1 n => rfl
  | case2 n t ih => rw [List.cons_append, braces?_opening, ih]
  | case3 t => rfl
  | case4 n t ih => rw [List.cons_append, braces?_closing, ih]
  | case5 n c t hOpening hZero hSucc ih =>
    have hClosing : c ≠ '}' := by
      cases n with
      | zero => exact hZero rfl
      | succ n => exact hSucc n rfl
    rw [List.cons_append, braces?_cons hOpening hClosing, ih]

/-- What a text opens and closes accounts for the braces that are open after it. -/
theorem count_of_braces?_eq_some {n m : Nat} {t : Text} (h : braces? n t = some m) :
    n + t.count '{' = m + t.count '}' := by
  fun_induction braces? n t with
  | case1 n => cases h; rfl
  | case2 n t ih =>
    have := ih h
    simp only [List.count_cons_self, List.count_cons_of_ne (show '{' ≠ '}' by decide)]
    omega
  | case3 t => cases h
  | case4 n t ih =>
    have := ih h
    simp only [List.count_cons_self, List.count_cons_of_ne (show '}' ≠ '{' by decide)]
    omega
  | case5 n c t hOpening hZero hSucc ih =>
    have hClosing : c ≠ '}' := by
      cases n with
      | zero => exact hZero rfl
      | succ n => exact hSucc n rfl
    rw [List.count_cons_of_ne hOpening, List.count_cons_of_ne hClosing]
    exact ih h

theorem balanced_of_braces? {t : Text} (h : braces? 0 t = some 0) : t.Balanced := by
  refine ⟨?_, ?_⟩
  · rintro u ⟨rest, rfl⟩
    rw [braces?_append] at h
    obtain ⟨m, hBeginning, -⟩ := Option.bind_eq_some_iff.mp h
    have := count_of_braces?_eq_some hBeginning
    omega
  · have := count_of_braces?_eq_some h
    omega

def IsClosed (t : Text) : Prop := ∀ n, braces? n t = some n

theorem isClosed_of_notMem {t : Text} (hOpening : '{' ∉ t) (hClosing : '}' ∉ t) : t.IsClosed := by
  intro n
  induction t with
  | nil => rfl
  | cons c t ih =>
    simp only [List.mem_cons, not_or] at hOpening hClosing
    rw [braces?_cons (Ne.symm hOpening.1) (Ne.symm hClosing.1), ih hOpening.2 hClosing.2]

@[simp] theorem isClosed_ofString {s : String} (hOpening : '{' ∉ s.toList)
    (hClosing : '}' ∉ s.toList) : (ofString s).IsClosed := by
  rw [ofString]
  exact isClosed_of_notMem hOpening hClosing

theorem isClosed_append {t u : Text} (ht : t.IsClosed) (hu : u.IsClosed) :
    IsClosed (t ++ u) := by
  intro n
  rw [braces?_append, ht n]
  exact hu n

theorem isClosed_concat {pieces : List Text} (h : ∀ piece ∈ pieces, piece.IsClosed) :
    (concat pieces).IsClosed := by
  induction pieces with
  | nil => exact fun n => rfl
  | cons piece pieces ih =>
    obtain ⟨hPiece, hPieces⟩ := List.forall_mem_cons.mp h
    exact isClosed_append hPiece (ih hPieces)

theorem isClosed_of_isWord {t : Text} (h : isWord t) : t.IsClosed := by
  apply isClosed_of_notMem
  all_goals
    intro hMem
    simpa [isWordPart] using isWordPart_of_mem h hMem

theorem isClosed_indentation (depth : Nat) : (indentation depth).IsClosed := by
  apply isClosed_of_notMem <;> simp [indentation]

theorem isBlank_of_mem_indentation {depth : Nat} {c : Char} (h : c ∈ indentation depth) :
    isBlank c := by
  rw [(List.mem_replicate.mp h).2]
  decide

end Text

open Text

/-- A line that stands as the braces open before it say, and the number that is open behind it. -/
inductive NestedLine : Nat → Text → Nat → Prop
  | blank (n : Nat) : NestedLine n [] n
  | plain {n k : Nat} {c : Char} {t : Text} (hBlank : isBlank c = false) (hBrace : c ≠ '}')
      (h : braces? n (c :: t) = some k) : NestedLine n (indentation n ++ c :: t) k
  | closing {n k : Nat} {t : Text} (h : braces? n t = some k) :
      NestedLine (n + 1) (indentation n ++ '}' :: t) k

inductive Nested : Nat → List Text → Nat → Prop
  | nil (n : Nat) : Nested n [] n
  | cons {n k m : Nat} {line : Text} {lines : List Text} (hLine : NestedLine n line k)
      (hLines : Nested k lines m) : Nested n (line :: lines) m

namespace NestedLine
variable {n k : Nat} {line : Text}

theorem braces?_eq (h : NestedLine n line k) : braces? n line = some k := by
  cases h with
  | blank => rfl
  | plain _ _ h => rw [braces?_append, isClosed_indentation]; exact h
  | closing h => rw [braces?_append, isClosed_indentation]; exact h

theorem indentedAfter (h : NestedLine n line k) {before : Text}
    (hBefore : before.count '{' = n + before.count '}') : IndentedAfter before line := by
  have hBlanks (depth : Nat) {c : Char} (hc : isBlank c = false) (t : Text) :
      (indentation depth ++ c :: t).takeWhile isBlank = indentation depth ∧
      (indentation depth ++ c :: t).dropWhile isBlank = c :: t := by
    have hMem : ∀ d ∈ indentation depth, isBlank d := fun d hd => isBlank_of_mem_indentation hd
    constructor
    · rw [List.takeWhile_append_of_pos hMem, List.takeWhile_cons_of_neg (by simp [hc]),
        List.append_nil]
    · rw [List.dropWhile_append_of_pos hMem, List.dropWhile_cons_of_neg (by simp [hc])]
  cases h with
  | blank => exact ⟨fun _ => rfl, fun ⟨c, hc, _⟩ => absurd hc List.not_mem_nil⟩
  | @plain n k c t hc hBrace h =>
    obtain ⟨hTake, hDrop⟩ := hBlanks n hc t
    refine ⟨fun hAll => ?_, fun _ => ⟨n, hTake, ?_⟩⟩
    · simp [hAll c (by simp)] at hc
    · rw [hDrop, List.head?_cons, if_neg (by simpa using hBrace), hBefore]
      rfl
  | @closing n k t h =>
    obtain ⟨hTake, hDrop⟩ := hBlanks n (c := '}') (by decide) t
    refine ⟨fun hAll => ?_, fun _ => ⟨n, hTake, ?_⟩⟩
    · exact absurd (hAll '}' (by simp)) (by decide)
    · rw [hDrop, List.head?_cons, if_pos rfl, hBefore]

end NestedLine

namespace Nested
variable {n k m : Nat} {lines lines' : List Text}

theorem append (h : Nested n lines k) (h' : Nested k lines' m) : Nested n (lines ++ lines') m := by
  induction h with
  | nil => exact h'
  | cons hLine _ ih => exact .cons hLine (ih h')

theorem exists_of_append (h : Nested n (lines ++ lines') m) :
    ∃ k, Nested n lines k ∧ Nested k lines' m := by
  induction lines generalizing n with
  | nil => exact ⟨n, .nil n, h⟩
  | cons line lines ih =>
    rw [List.cons_append] at h
    cases h with
    | cons hLine hLines =>
      obtain ⟨k, hFirst, hRest⟩ := ih hLines
      exact ⟨k, .cons hLine hFirst, hRest⟩

theorem braces?_unlines (h : Nested n lines m) : braces? n (unlines lines) = some m := by
  induction h with
  | nil => rfl
  | cons hLine _ ih =>
    rw [unlines_cons, braces?_append, hLine.braces?_eq, Option.bind_some,
      braces?_cons (by decide) (by decide), ih]

theorem indentedAfter {line : Text} (h : Nested 0 (lines ++ line :: lines') m) :
    IndentedAfter (unlines lines) line := by
  obtain ⟨n, hBefore, hRest⟩ := exists_of_append h
  cases hRest with
  | cons hLine _ =>
    apply hLine.indentedAfter
    have := count_of_braces?_eq_some hBefore.braces?_unlines
    omega

theorem intercalate {groups : List (List Text)} (h : ∀ group ∈ groups, Nested n group n) :
    Nested n (List.intercalate [[]] groups) n := by
  induction groups with
  | nil => exact .nil n
  | cons group groups ih =>
    obtain ⟨hGroup, hGroups⟩ := List.forall_mem_cons.mp h
    cases groups with
    | nil => simpa using hGroup
    | cons next groups =>
      rw [List.intercalate_cons_cons]
      exact (hGroup.append (.cons (.blank n) (.nil n))).append (ih hGroups)

end Nested

namespace Block

/-- The depth after a block, or none if a line closes a level that is not open. -/
def depthAfter? : Nat → Block → Option Nat
  | depth, [] => some depth
  | depth, l :: ls =>
    match l.shift, depth with
    | .stay, depth => depthAfter? depth ls
    | .deeper, depth => depthAfter? (depth + 1) ls
    | .shallower, 0 => none
    | .shallower, depth + 1 => depthAfter? depth ls

theorem depthAfter?_append (depth : Nat) (block block' : Block) :
    depthAfter? depth (block ++ block') = (depthAfter? depth block).bind (depthAfter? · block') := by
  fun_induction depthAfter? depth block with
  | case1 depth => rfl
  | case2 depth l ls hShift ih => simp only [List.cons_append, depthAfter?, hShift, ih]
  | case3 depth l ls hShift ih => simp only [List.cons_append, depthAfter?, hShift, ih]
  | case4 l ls hShift => simp only [List.cons_append, depthAfter?, hShift, Option.bind_none]
  | case5 l ls depth hShift ih => simp only [List.cons_append, depthAfter?, hShift, ih]

end Block

/-- A line that shifts the depth by a brace, or leaves both the depth and the braces alone. -/
def CodeLine.Neat (line : CodeLine) : Prop :=
  match line.shift with
  | .stay => line.text = [] ∨
    line.text.IsClosed ∧ ∃ c ∈ line.text.head?, isBlank c = false ∧ c ≠ '}'
  | .deeper => (∀ n, braces? n line.text = some (n + 1)) ∧
    ∃ c ∈ line.text.head?, isBlank c = false ∧ c ≠ '}'
  | .shallower => ∃ t : Text, line.text = '}' :: t ∧ t.IsClosed

namespace CodeLine
variable {pieces : List Text} {c : Char}

theorem head?_concat (h : pieces.head?.bind List.head? = some c) :
    (Text.concat pieces).head? = some c := by
  obtain ⟨piece, hPiece, hHead⟩ := Option.bind_eq_some_iff.mp h
  obtain ⟨rest, rfl⟩ := List.head?_eq_some_iff.mp hPiece
  simp [Text.concat, hHead]

theorem neat_line (hHead : pieces.head?.bind List.head? = some c)
    (hc : isBlank c = false ∧ c ≠ '}') (h : ∀ piece ∈ pieces, piece.IsClosed) :
    (line pieces).Neat :=
  .inr ⟨isClosed_concat h, c, head?_concat hHead, hc⟩

theorem neat_blank : blank.Neat := .inl rfl

theorem neat_opening {t : Text} (hHead : pieces.head?.bind List.head? = some c)
    (hc : isBlank c = false ∧ c ≠ '}') (h : ∀ piece ∈ pieces.dropLast, piece.IsClosed)
    (hLast : pieces.getLast? = some (t ++ ['{'])) (hStem : t.IsClosed) :
    (opening pieces).Neat := by
  refine ⟨fun n => ?_, c, head?_concat hHead, hc⟩
  obtain ⟨init, rfl⟩ := List.getLast?_eq_some_iff.mp hLast
  rw [List.dropLast_concat] at h
  have hText : (opening (init ++ [t ++ ['{']])).text = Text.concat init ++ (t ++ ['{']) := by
    simp [opening, Text.concat]
  rw [hText, braces?_append, isClosed_concat h, Option.bind_some, braces?_append, hStem]
  rfl

theorem neat_closing {t : Text} (hText : Text.concat pieces = '}' :: t) (h : t.IsClosed) :
    (closing pieces).Neat := ⟨t, hText, h⟩

end CodeLine

theorem NestedLine.rowLine {line : CodeLine} {n k : Nat} (base : Nat)
    (hEmpty : line.text = [] → n = k)
    (hc : line.text ≠ [] → ∃ c ∈ line.text.head?, isBlank c = false ∧ c ≠ '}')
    (h : braces? (base + n) line.text = some (base + k)) :
    NestedLine (base + n) (Row.line base ⟨n, line.text⟩) (base + k) := by
  cases hText : line.text with
  | nil =>
    rw [hEmpty hText]
    exact .blank _
  | cons c t =>
    obtain ⟨d, hHead, hBlank, hBrace⟩ := hc (by simp [hText])
    rw [hText] at h hHead
    cases hHead
    exact .plain hBlank hBrace h

/-- Neat lines are indented as their braces say, at whatever depth the block is placed. -/
theorem Block.nested_rowsFrom {block : Block} (hNeat : ∀ line ∈ block, line.Neat) (base : Nat)
    {depth depth' : Nat} (h : depthAfter? depth block = some depth') :
    Nested (base + depth) ((rowsFrom depth block).map (Row.line base)) (base + depth') := by
  fun_induction depthAfter? depth block with
  | case1 depth =>
    cases h
    exact .nil _
  | case2 depth l ls hShift ih =>
    obtain ⟨hLine, hLines⟩ := List.forall_mem_cons.mp hNeat
    rw [CodeLine.Neat, hShift] at hLine
    rw [rowsFrom, hShift]
    refine .cons (NestedLine.rowLine base (fun _ => rfl) ?_ ?_) (ih hLines h)
    · intro hText
      exact (hLine.resolve_left hText).2
    · rcases hLine with hText | ⟨hClosed, -⟩
      · rw [hText]
        rfl
      · exact hClosed _
  | case3 depth l ls hShift ih =>
    obtain ⟨hLine, hLines⟩ := List.forall_mem_cons.mp hNeat
    rw [CodeLine.Neat, hShift] at hLine
    obtain ⟨hBraces, c, hHead, hc⟩ := hLine
    rw [rowsFrom, hShift]
    refine .cons (NestedLine.rowLine base ?_ ?_ (hBraces _)) (ih hLines h)
    · intro hText
      rw [hText] at hHead
      cases hHead
    · exact fun _ => ⟨c, hHead, hc⟩
  | case4 l ls hShift => cases h
  | case5 l ls depth hShift ih =>
    obtain ⟨hLine, hLines⟩ := List.forall_mem_cons.mp hNeat
    rw [CodeLine.Neat, hShift] at hLine
    obtain ⟨t, hText, hClosed⟩ := hLine
    rw [rowsFrom, hShift]
    refine .cons ?_ (ih hLines h)
    rw [Nat.succ_sub_one, Row.line, hText]
    exact .closing (hClosed _)

end NodeScaffold
