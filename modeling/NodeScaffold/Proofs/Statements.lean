import NodeScaffold.Declaration.FieldLine
import NodeScaffold.Proofs.Substitution

/-! # Statements of a body

A body is cut after its semicolons and nowhere else. Blanks are all that is lost on the way, so
blanks around a body make no difference to its statements. -/
namespace NodeScaffold
set_option autoImplicit false

namespace Text

/-- A text as its pieces before each separator and what follows the last one. -/
theorem exists_eq_pieces (sep : Char) (t : Text) :
    ∃ (pieces : List Text) (rest : Text), (∀ piece ∈ pieces, sep ∉ piece) ∧ sep ∉ rest ∧
      t = pieces.flatMap (· ++ [sep]) ++ rest := by
  induction t with
  | nil => exact ⟨[], [], by simp, by simp, rfl⟩
  | cons c t ih =>
    obtain ⟨pieces, rest, hPieces, hRest, rfl⟩ := ih
    by_cases hc : c = sep
    · subst hc
      exact ⟨[] :: pieces, rest, by simpa using hPieces, hRest, rfl⟩
    · cases pieces with
      | nil => exact ⟨[], c :: rest, by simp, by simp [Ne.symm hc, hRest], rfl⟩
      | cons piece pieces =>
        obtain ⟨hPiece, hPieces⟩ := List.forall_mem_cons.mp hPieces
        refine ⟨(c :: piece) :: pieces, rest, List.forall_mem_cons.mpr ⟨?_, hPieces⟩, hRest, rfl⟩
        simp [Ne.symm hc, hPiece]

theorem splitAfter_of_notMem {sep : Char} {t : Text} (h : sep ∉ t) :
    splitAfter sep t = if t = [] then [] else [t] := by
  induction t with
  | nil => rfl
  | cons c t ih =>
    obtain ⟨hc, ht⟩ := not_or.mp (mt List.mem_cons.mpr h)
    rw [splitAfter_cons, if_neg (Ne.symm hc), ih ht, if_neg (List.cons_ne_nil c t)]
    split
    · next hNil => rw [hNil]; rfl
    · rfl

theorem splitAfter_pieces {sep : Char} {pieces : List Text} (h : ∀ piece ∈ pieces, sep ∉ piece)
    (rest : Text) :
    splitAfter sep (pieces.flatMap (· ++ [sep]) ++ rest) =
      pieces.map (· ++ [sep]) ++ splitAfter sep rest := by
  induction pieces with
  | nil => rfl
  | cons piece pieces ih =>
    obtain ⟨hPiece, hPieces⟩ := List.forall_mem_cons.mp h
    have hCut := splitAfter_append_cons hPiece (pieces.flatMap (· ++ [sep]) ++ rest)
    rw [ih hPieces] at hCut
    simpa using hCut

end Text

section
variable {pieces : List Text} {rest : Text}

theorem bodyStatements_pieces (hPieces : ∀ piece ∈ pieces, ';' ∉ piece) (hRest : ';' ∉ rest) :
    bodyStatements (pieces.flatMap (· ++ [';']) ++ rest) =
      pieces.map (fun piece => Text.trim (piece ++ [';'])) ++
        if rest.trim = [] then [] else [rest.trim] := by
  have hEnded : ∀ s ∈ pieces.map (fun piece => Text.trim (piece ++ [';'])), s ≠ [] := by
    intro s hs
    obtain ⟨piece, -, rfl⟩ := List.mem_map.mp hs
    rw [Text.trim_concat (by decide), Text.trimStart_concat (by decide)]
    simp
  rw [bodyStatements, Text.splitAfter_pieces hPieces, List.map_append, List.filter_append,
    List.map_map, Text.splitAfter_of_notMem hRest]
  congr 1
  · exact List.filter_eq_self.mpr fun s hs => by simpa using hEnded s hs
  · by_cases hNil : rest = []
    · simp [hNil, Text.trim_eq_nil]
    · by_cases hTrim : rest.trim = []
      · simp [hNil, hTrim]
      · simp [hNil, hTrim]

end

theorem bodyStatements_append_cons {piece : Text} (h : ';' ∉ piece) (t : Text) :
    bodyStatements (piece ++ ';' :: t) = Text.trim (piece ++ [';']) :: bodyStatements t := by
  have hTrim : Text.trim (piece ++ [';']) ≠ [] := by
    rw [Text.trim_concat (by decide), Text.trimStart_concat (by decide)]
    simp
  rw [bodyStatements, Text.splitAfter_append_cons h]
  simp [bodyStatements, hTrim]

theorem bodyStatements_append_blanks {u : Text} (hu : ∀ c ∈ u, Text.isBlank c) (t : Text) :
    bodyStatements (t ++ u) = bodyStatements t := by
  obtain ⟨pieces, rest, hPieces, hRest, rfl⟩ := Text.exists_eq_pieces ';' t
  have hBlanks : ';' ∉ u := fun hMem => absurd (hu ';' hMem) (by decide)
  rw [List.append_assoc, bodyStatements_pieces hPieces (by simp [hRest, hBlanks]),
    bodyStatements_pieces hPieces hRest, Text.trim_append_blanks hu]

theorem bodyStatements_blanks_append {u : Text} (hu : ∀ c ∈ u, Text.isBlank c) (t : Text) :
    bodyStatements (u ++ t) = bodyStatements t := by
  obtain ⟨pieces, rest, hPieces, hRest, rfl⟩ := Text.exists_eq_pieces ';' t
  have hBlanks : ';' ∉ u := fun hMem => absurd (hu ';' hMem) (by decide)
  rw [bodyStatements_pieces hPieces hRest]
  cases pieces with
  | nil =>
    have hWhole := bodyStatements_pieces hPieces
      (show ';' ∉ u ++ rest by simp [hRest, hBlanks])
    rw [Text.trim_blanks_append hu] at hWhole
    exact hWhole
  | cons piece pieces =>
    obtain ⟨hPiece, hMore⟩ := List.forall_mem_cons.mp hPieces
    have hFirst : ∀ p ∈ (u ++ piece) :: pieces, ';' ∉ p :=
      List.forall_mem_cons.mpr ⟨by simp [hPiece, hBlanks], hMore⟩
    have hWhole := bodyStatements_pieces hFirst hRest
    rw [List.map_cons, List.append_assoc u, Text.trim_blanks_append hu] at hWhole
    simpa using hWhole

theorem bodyStatements_trim (t : Text) : bodyStatements t.trim = bodyStatements t := by
  obtain ⟨u, v, hu, hv, ht⟩ := Text.exists_eq_trim_append t
  have hBlanks := bodyStatements_append_blanks hv (u ++ t.trim)
  rw [bodyStatements_blanks_append hu, ← ht] at hBlanks
  exact hBlanks.symm

/-- Statements of a text: trimmed, each with a semicolon at its end at most, which only the last may
lack; and together they are the text but for its blanks. -/
structure AreStatements (t : Text) (statements : List Text) : Prop where
  nonempty : ∀ s ∈ statements, s ≠ []
  trimmed : ∀ s ∈ statements, s.trim = s
  undivided : ∀ s ∈ statements, ';' ∉ s.dropLast
  ended : ∀ s ∈ statements.dropLast, s.getLast? = some ';'
  complete : Text.withoutBlanks statements.flatten = Text.withoutBlanks t

theorem withoutBlanks_flatten_map_trim (pieces : List Text) :
    Text.withoutBlanks (pieces.map Text.trim).flatten = Text.withoutBlanks pieces.flatten := by
  induction pieces with
  | nil => rfl
  | cons piece pieces ih =>
    rw [List.map_cons, List.flatten_cons, List.flatten_cons, Text.withoutBlanks_append,
      Text.withoutBlanks_append, Text.withoutBlanks_trim, ih]

theorem areStatements_bodyStatements (t : Text) : AreStatements t (bodyStatements t) := by
  have hComplete : Text.withoutBlanks (bodyStatements t).flatten = Text.withoutBlanks t := by
    rw [bodyStatements, List.flatten_filter_not_isEmpty, withoutBlanks_flatten_map_trim,
      Text.flatten_splitAfter]
  have hFilter : ∀ s ∈ bodyStatements t, s ≠ [] ∧ s.trim = s := by
    intro s hs
    obtain ⟨hMem, hNonempty⟩ := List.mem_filter.mp hs
    obtain ⟨piece, -, rfl⟩ := List.mem_map.mp hMem
    exact ⟨by simpa using hNonempty, Text.trim_trim piece⟩
  obtain ⟨pieces, rest, hPieces, hRest, hEq⟩ := Text.exists_eq_pieces ';' t
  have hStatements := bodyStatements_pieces hPieces hRest
  rw [← hEq] at hStatements
  have hEnded : ∀ s ∈ pieces.map (fun piece => Text.trim (piece ++ [';'])),
      ∃ u, ';' ∉ u ∧ s = u ++ [';'] := by
    intro s hs
    obtain ⟨piece, hPiece, rfl⟩ := List.mem_map.mp hs
    refine ⟨piece.trimStart, fun hMem => ?_, ?_⟩
    · exact hPieces piece hPiece ((List.dropWhile_sublist _).subset hMem)
    · rw [Text.trim_concat (by decide), Text.trimStart_concat (by decide)]
  refine ⟨fun s hs => (hFilter s hs).1, fun s hs => (hFilter s hs).2, ?_, ?_, hComplete⟩
  · intro s hs
    rw [hStatements] at hs
    rcases List.mem_append.mp hs with hs | hs
    · obtain ⟨u, hu, rfl⟩ := hEnded s hs
      simpa using hu
    · split at hs
      · cases hs
      · cases List.mem_singleton.mp hs
        intro hMem
        exact hRest ((Text.trim_isInfix rest).subset ((List.dropLast_sublist _).subset hMem))
  · intro s hs
    have hMem : s ∈ pieces.map (fun piece => Text.trim (piece ++ [';'])) := by
      rw [hStatements] at hs
      split at hs
      · rw [List.append_nil] at hs
        exact (List.dropLast_sublist _).subset hs
      · rwa [List.dropLast_concat] at hs
    obtain ⟨u, -, rfl⟩ := hEnded s hMem
    simp

end NodeScaffold
