import Mathlib.Data.List.TakeWhile
import NodeScaffold.Line

/-! # Trimming, splitting and joining

What trimming leaves of a text, and the lines of a text that was joined from lines. -/
namespace NodeScaffold.Text
set_option autoImplicit false

theorem trimEnd_cons (c : Char) (t : Text) :
    trimEnd (c :: t) = if (trimEnd t).isEmpty && isBlank c then [] else c :: trimEnd t := rfl

theorem trimEnd_concat {c : Char} (hc : isBlank c = false) (t : Text) :
    trimEnd (t ++ [c]) = t ++ [c] := by
  induction t with
  | nil => simp [trimEnd, hc]
  | cons d t ih =>
    rw [List.cons_append, trimEnd_cons, ih]
    simp

theorem trimEnd_isPrefix (t : Text) : trimEnd t <+: t := by
  induction t with
  | nil => exact List.prefix_refl []
  | cons c t ih =>
    rw [trimEnd_cons]
    split
    · exact List.nil_prefix
    · exact (List.prefix_cons_inj c).mpr ih

theorem trimEnd_eq_self {t : Text} (h : ∀ c ∈ t.getLast?, isBlank c = false) : trimEnd t = t := by
  rcases List.eq_nil_or_concat t with rfl | ⟨u, c, rfl⟩
  · rfl
  · rw [List.concat_eq_append] at h ⊢
    exact trimEnd_concat (h c (by simp)) u

theorem isBlank_of_mem_getLast?_trimEnd (t : Text) :
    ∀ c ∈ (trimEnd t).getLast?, isBlank c = false := by
  induction t with
  | nil => simp [trimEnd]
  | cons d t ih =>
    rw [trimEnd_cons]
    split
    · simp
    · next h =>
      intro c hc
      cases hRest : trimEnd t with
      | nil => simp_all
      | cons e u =>
        rw [hRest] at hc ih
        exact ih c (by simpa using hc)

theorem trimEnd_trimEnd (t : Text) : trimEnd (trimEnd t) = trimEnd t :=
  trimEnd_eq_self (isBlank_of_mem_getLast?_trimEnd t)

theorem trimStart_concat {c : Char} (hc : isBlank c = false) (t : Text) :
    trimStart (t ++ [c]) = trimStart t ++ [c] := by
  rw [trimStart, trimStart, List.dropWhile_append]
  split
  · next h => rw [List.isEmpty_iff.mp h, List.dropWhile_cons_of_neg (by simp [hc])]; rfl
  · rfl

theorem trim_concat {c : Char} (hc : isBlank c = false) (t : Text) :
    trim (t ++ [c]) = trimStart (t ++ [c]) := by
  rw [trim, trimStart_concat hc, trimEnd_concat hc]

theorem trim_eq_self {t : Text} (hHead : ∀ c ∈ t.head?, isBlank c = false)
    (hLast : ∀ c ∈ t.getLast?, isBlank c = false) : trim t = t := by
  have hStart : trimStart t = t := by
    cases t with
    | nil => rfl
    | cons c t => exact List.dropWhile_cons_of_neg (by simp [hHead c rfl])
  rw [trim, hStart, trimEnd_eq_self hLast]

theorem trim_eq_self_of_forall {t : Text} (h : ∀ c ∈ t, isBlank c = false) : t.trim = t := by
  apply trim_eq_self
  · intro c hc
    exact h c (List.mem_of_mem_head? hc)
  · intro c hc
    exact h c (List.mem_of_getLast? hc)

theorem isBlank_of_mem_head?_trim (t : Text) : ∀ c ∈ (trim t).head?, isBlank c = false := by
  intro c hc
  obtain ⟨rest, hRest⟩ := trimEnd_isPrefix (trimStart t)
  have hStart : (trimStart t).head? = some c := by
    rw [← hRest, List.head?_append]
    exact congrArg (Option.or · _) hc
  have hNot := List.head?_dropWhile_not isBlank t
  rw [← trimStart, hStart] at hNot
  simpa using hNot

@[simp] theorem trim_trim (t : Text) : trim (trim t) = trim t :=
  trim_eq_self (isBlank_of_mem_head?_trim t) (isBlank_of_mem_getLast?_trimEnd _)

theorem trim_isInfix (t : Text) : trim t <:+: t :=
  (trimEnd_isPrefix _).isInfix.trans (List.dropWhile_suffix _).isInfix

theorem trim_eq_nil {t : Text} (h : ∀ c ∈ t, isBlank c) : trim t = [] := by
  rw [trim, trimStart, List.dropWhile_eq_nil_iff.mpr h]
  rfl

theorem trimEnd_cons_congr {t u : Text} (h : trimEnd t = trimEnd u) (c : Char) :
    trimEnd (c :: t) = trimEnd (c :: u) := by rw [trimEnd_cons, trimEnd_cons, h]

theorem trimEnd_append_blanks {u : Text} (h : ∀ c ∈ u, isBlank c) (t : Text) :
    trimEnd (t ++ u) = trimEnd t := by
  induction t with
  | nil =>
    induction u with
    | nil => rfl
    | cons c u ih =>
      obtain ⟨hc, hu⟩ := List.forall_mem_cons.mp h
      have hNil : trimEnd u = [] := ih hu
      rw [List.nil_append, trimEnd_cons, hNil]
      simp [hc, trimEnd]
  | cons c t ih => exact trimEnd_cons_congr ih c

theorem trim_blanks_append {u : Text} (h : ∀ c ∈ u, isBlank c) (t : Text) :
    trim (u ++ t) = trim t := by
  rw [trim, trim, trimStart, trimStart, List.dropWhile_append_of_pos h]

theorem trim_append_blanks {u : Text} (h : ∀ c ∈ u, isBlank c) (t : Text) :
    trim (t ++ u) = trim t := by
  rw [trim, trim, trimStart, trimStart, List.dropWhile_append]
  split
  · next hNil =>
    rw [List.isEmpty_iff.mp hNil, List.dropWhile_eq_nil_iff.mpr h]
  · exact trimEnd_append_blanks h _

theorem exists_eq_trimEnd_append (t : Text) : ∃ u, (∀ c ∈ u, isBlank c) ∧ t = trimEnd t ++ u := by
  induction t with
  | nil => exact ⟨[], by simp, rfl⟩
  | cons c t ih =>
    obtain ⟨u, hu, ht⟩ := ih
    rw [trimEnd_cons]
    split
    · next h =>
      simp only [Bool.and_eq_true, List.isEmpty_iff] at h
      rw [h.1, List.nil_append] at ht
      subst ht
      exact ⟨c :: t, List.forall_mem_cons.mpr ⟨h.2, hu⟩, rfl⟩
    · exact ⟨u, hu, congrArg (c :: ·) ht⟩

theorem trim_trimEnd (t : Text) : trim (trimEnd t) = trim t := by
  obtain ⟨u, hu, ht⟩ := exists_eq_trimEnd_append t
  have hAppend := trim_append_blanks hu (trimEnd t)
  rwa [← ht, eq_comm] at hAppend

/-- A text is its trimmed form between blanks. -/
theorem exists_eq_trim_append (t : Text) :
    ∃ u v, (∀ c ∈ u, isBlank c) ∧ (∀ c ∈ v, isBlank c) ∧ t = u ++ trim t ++ v := by
  obtain ⟨v, hv, hEnd⟩ := exists_eq_trimEnd_append (trimStart t)
  refine ⟨t.takeWhile isBlank, v, fun c hc => List.mem_takeWhile_imp hc, hv, ?_⟩
  rw [List.append_assoc, trim, ← hEnd, trimStart, List.takeWhile_append_dropWhile]

@[simp] theorem withoutBlanks_append (t u : Text) :
    withoutBlanks (t ++ u) = withoutBlanks t ++ withoutBlanks u := List.filter_append ..

theorem withoutBlanks_eq_nil {t : Text} (h : ∀ c ∈ t, isBlank c) : withoutBlanks t = [] := by
  simpa [withoutBlanks] using h

theorem withoutBlanks_trimStart (t : Text) : withoutBlanks (trimStart t) = withoutBlanks t := by
  induction t with
  | nil => rfl
  | cons c t ih =>
    by_cases hc : isBlank c
    · simpa [trimStart, withoutBlanks, hc] using ih
    · simp [trimStart, hc]

theorem withoutBlanks_trimEnd (t : Text) : withoutBlanks (trimEnd t) = withoutBlanks t := by
  induction t with
  | nil => rfl
  | cons c t ih =>
    rw [trimEnd_cons]
    split
    · next h =>
      simp only [Bool.and_eq_true, List.isEmpty_iff] at h
      rw [h.1] at ih
      simpa [withoutBlanks, h.2] using ih
    · simp only [withoutBlanks, List.filter_cons] at ih ⊢
      rw [ih]

theorem withoutBlanks_trim (t : Text) : withoutBlanks (trim t) = withoutBlanks t := by
  rw [trim, withoutBlanks_trimEnd, withoutBlanks_trimStart]

theorem dropHead?_append (head rest : Text) : dropHead? (head ++ rest) head = some rest := by
  simp [dropHead?]

theorem eq_append_of_dropHead? {t head rest : Text} (h : dropHead? t head = some rest) :
    t = head ++ rest := by
  rw [dropHead?] at h
  split at h
  · next hHead =>
    cases h
    obtain ⟨more, rfl⟩ := List.isPrefixOf_iff_prefix.mp hHead
    simp
  · cases h

theorem dropHead?_isSuffix {t head rest : Text} (h : dropHead? t head = some rest) :
    rest <:+ t := by
  rw [eq_append_of_dropHead? h]
  exact List.suffix_append head rest

theorem split_cons (sep c : Char) (t : Text) :
    split sep (c :: t) = if c = sep then [] :: split sep t else consPiece c (split sep t) := rfl

theorem splitAfter_cons (sep c : Char) (t : Text) :
    splitAfter sep (c :: t) =
      if c = sep then [c] :: splitAfter sep t else consPiece c (splitAfter sep t) := rfl

theorem split_of_notMem {sep : Char} {t : Text} (h : sep ∉ t) : split sep t = [t] := by
  induction t with
  | nil => rfl
  | cons c t ih =>
    obtain ⟨hc, ht⟩ := not_or.mp (mt List.mem_cons.mpr h)
    rw [split_cons, if_neg (Ne.symm hc), ih ht]
    rfl

theorem split_append_cons {sep : Char} {t : Text} (h : sep ∉ t) (u : Text) :
    split sep (t ++ sep :: u) = t :: split sep u := by
  induction t with
  | nil => simp [split_cons]
  | cons c t ih =>
    obtain ⟨hc, ht⟩ := not_or.mp (mt List.mem_cons.mpr h)
    rw [List.cons_append, split_cons, if_neg (Ne.symm hc), ih ht]
    rfl

theorem notMem_of_mem_split {sep : Char} {t piece : Text} (h : piece ∈ split sep t) :
    sep ∉ piece := by
  induction t generalizing piece with
  | nil =>
    cases List.mem_singleton.mp h
    simp
  | cons c t ih =>
    rw [split_cons] at h
    split at h
    · rcases List.mem_cons.mp h with rfl | h
      · simp
      · exact ih h
    · next hc =>
      cases hSplit : split sep t with
      | nil => exact absurd hSplit (split_ne_nil sep t)
      | cons first rest =>
        rw [hSplit] at h ih
        rcases List.mem_cons.mp h with rfl | h
        · have hFirst := ih List.mem_cons_self
          simp [hFirst, Ne.symm hc]
        · exact ih (List.mem_cons_of_mem _ h)

theorem join_cons_cons (sep : Char) (item next : Text) (items : List Text) :
    join [sep] (item :: next :: items) = item ++ sep :: join [sep] (next :: items) := by
  simp [join, List.intercalate]

theorem split_join {sep : Char} {items : List Text} (hNonempty : items ≠ [])
    (h : ∀ item ∈ items, sep ∉ item) : split sep (join [sep] items) = items := by
  induction items with
  | nil => exact absurd rfl hNonempty
  | cons item items ih =>
    have hItem := h item List.mem_cons_self
    cases items with
    | nil =>
      simpa [join, List.intercalate] using split_of_notMem hItem
    | cons next items =>
      rw [join_cons_cons, split_append_cons hItem,
        ih (by simp) fun i hi => h i (List.mem_cons_of_mem _ hi)]

theorem join_split (sep : Char) (t : Text) : join [sep] (split sep t) = t := by
  induction t with
  | nil => rfl
  | cons c t ih =>
    obtain ⟨piece, pieces, hPieces⟩ := List.exists_cons_of_ne_nil (split_ne_nil sep t)
    rw [hPieces] at ih
    rw [split_cons, hPieces]
    split
    · next hc => rw [join_cons_cons, ih, hc, List.nil_append]
    · rw [← ih]
      cases pieces with
      | nil => simp [consPiece, join, List.intercalate]
      | cons next pieces => rw [consPiece, join_cons_cons, join_cons_cons, List.cons_append]

theorem forall_mem_join {p : Char → Prop} {sep : Text} {items : List Text} (hSep : ∀ c ∈ sep, p c)
    (h : ∀ item ∈ items, ∀ c ∈ item, p c) : ∀ c ∈ join sep items, p c := by
  induction items with
  | nil => simp [join]
  | cons item items ih =>
    obtain ⟨hItem, hItems⟩ := List.forall_mem_cons.mp h
    cases items with
    | nil => simpa [join, List.intercalate] using hItem
    | cons next items =>
      rw [join, List.intercalate_cons_cons]
      exact List.forall_mem_append.mpr ⟨List.forall_mem_append.mpr ⟨hItem, hSep⟩, ih hItems⟩

end NodeScaffold.Text

namespace NodeScaffold.Line
set_option autoImplicit false

theorem beforeComment_isPrefix (t : Text) : beforeComment t <+: t := by
  fun_induction beforeComment t with
  | case1 => exact List.prefix_refl []
  | case2 => exact List.nil_prefix
  | case3 c t _ ih => exact (List.prefix_cons_inj c).mpr ih

theorem clean_isPrefix_trim (t : Text) : clean t <+: t.trim :=
  (Text.trimEnd_isPrefix _).trans (beforeComment_isPrefix _)

/-- A line is cut at its first comment mark: what is kept holds none, not even together with the
slash behind it. -/
theorem exists_eq_beforeComment_append (t : Text) : ∃ comment, t = beforeComment t ++ comment ∧
    (comment = [] ∨ ['/', '/'] <+: comment) ∧
    ¬ ['/', '/'] <:+: beforeComment t ++ comment.take 1 := by
  fun_induction beforeComment t with
  | case1 => exact ⟨[], rfl, .inl rfl, by simp⟩
  | case2 rest =>
    refine ⟨'/' :: '/' :: rest, rfl, .inr (List.prefix_append ['/', '/'] rest), fun h => ?_⟩
    simpa using h.length_le
  | case3 c t hc ih =>
    obtain ⟨comment, hText, hComment, hNone⟩ := ih
    refine ⟨comment, congrArg (c :: ·) hText, hComment, fun h => ?_⟩
    obtain hHead | hTail := List.infix_cons_iff.mp h
    · obtain ⟨rfl, rest, hRest⟩ := List.cons_prefix_cons.mp hHead
      have hHeads : (beforeComment t ++ comment.take 1).head? =
          (beforeComment t ++ comment).head? := by
        generalize beforeComment t = kept
        cases kept <;> cases comment <;> rfl
      have hFirst : t.head? = some '/' := by
        rw [← hText] at hHeads
        rw [← hHeads]
        exact (congrArg List.head? hRest).symm
      obtain ⟨following, rfl⟩ := List.head?_eq_some_iff.mp hFirst
      exact hc following rfl rfl
    · exact hNone hTail

theorem beforeComment_eq_self_of_not_isInfix {t : Text} (h : ¬ ['/', '/'] <:+: t) :
    beforeComment t = t := by
  obtain ⟨comment, hText, rfl | hComment, -⟩ := exists_eq_beforeComment_append t
  · simpa using hText.symm
  · refine absurd (hComment.isInfix.trans ?_) h
    exact (List.suffix_append (beforeComment t) comment).isInfix.trans (hText ▸ List.infix_rfl)

theorem beforeComment_eq_self {t : Text} (h : '/' ∉ t) : beforeComment t = t :=
  beforeComment_eq_self_of_not_isInfix fun hInfix => h (hInfix.subset List.mem_cons_self)

/-- Without a comment, cleaning only trims. -/
theorem clean_eq_trim {t : Text} (h : '/' ∉ t) : clean t = t.trim := by
  have hTrim : '/' ∉ t.trim := fun hMem => h ((Text.trim_isInfix t).subset hMem)
  rw [clean, beforeComment_eq_self hTrim, Text.trim, Text.trimEnd_trimEnd]

theorem beforeComment_cons {c : Char} {t : Text} (h : c = '/' → t.head? ≠ some '/') :
    beforeComment (c :: t) = c :: beforeComment t := by
  refine beforeComment.eq_3 c t ?_
  rintro rest rfl rfl
  exact h rfl rfl

/-- What follows a text does not change its part before the comment, except for blanks at the end,
if it starts with no slash and has nothing but blanks before a comment of its own. -/
theorem trimEnd_beforeComment_append {u : Text} (hHead : u.head? ≠ some '/')
    (hBlank : (beforeComment u).trimEnd = []) (t : Text) :
    (beforeComment (t ++ u)).trimEnd = (beforeComment t).trimEnd := by
  fun_induction beforeComment t with
  | case1 => exact hBlank
  | case2 => rfl
  | case3 c t hc ih =>
    have hNext : c = '/' → (t ++ u).head? ≠ some '/' := by
      rintro rfl
      cases t with
      | nil => exact hHead
      | cons d t =>
        intro hSlash
        cases Option.some.inj hSlash
        exact hc t rfl rfl
    rw [List.cons_append, beforeComment_cons hNext]
    exact Text.trimEnd_cons_congr ih c

theorem trimEnd_beforeComment_trimEnd (t : Text) :
    (beforeComment t.trimEnd).trimEnd = (beforeComment t).trimEnd := by
  obtain ⟨u, hu, ht⟩ := Text.exists_eq_trimEnd_append t
  have hSlash : '/' ∉ u := fun hMem => absurd (hu '/' hMem) (by decide)
  have hBlank : (beforeComment u).trimEnd = [] := by
    rw [beforeComment_eq_self hSlash]
    exact Text.trimEnd_append_blanks hu []
  have hAppend := trimEnd_beforeComment_append
    (fun hHead => hSlash (List.mem_of_mem_head? hHead)) hBlank t.trimEnd
  rwa [← ht, eq_comm] at hAppend

theorem beforeComment_trimStart (t : Text) :
    beforeComment t.trimStart = (beforeComment t).trimStart := by
  induction t with
  | nil => rfl
  | cons c t ih =>
    by_cases hc : Text.isBlank c
    · have hSlash : c ≠ '/' := by
        rintro rfl
        exact absurd hc (by decide)
      rw [beforeComment_cons fun h => absurd h hSlash]
      simpa [Text.trimStart, hc] using ih
    · have hStart : Text.trimStart (c :: t) = c :: t := List.dropWhile_cons_of_neg hc
      rw [hStart]
      by_cases hComment : c = '/' ∧ t.head? = some '/'
      · obtain ⟨rfl, hHead⟩ := hComment
        obtain ⟨rest, rfl⟩ := List.head?_eq_some_iff.mp hHead
        rfl
      · rw [beforeComment_cons fun h hHead => hComment ⟨h, hHead⟩]
        exact (List.dropWhile_cons_of_neg hc).symm

/-- Cutting the comment first and trimming afterwards comes to the same. -/
theorem clean_eq_trim_beforeComment (t : Text) : clean t = (beforeComment t).trim := by
  rw [clean, Text.trim, trimEnd_beforeComment_trimEnd, beforeComment_trimStart, Text.trim]

theorem clean_append_blanks {u : Text} (h : ∀ c ∈ u, Text.isBlank c) (t : Text) :
    clean (t ++ u) = clean t := by rw [clean, clean, Text.trim_append_blanks h]

theorem clean_blanks_append {u : Text} (h : ∀ c ∈ u, Text.isBlank c) (t : Text) :
    clean (u ++ t) = clean t := by rw [clean, clean, Text.trim_blanks_append h]

theorem clean_append_comment (t comment : Text) :
    clean (t ++ ' ' :: '/' :: '/' :: comment) = clean t := by
  have hBlank : (beforeComment (' ' :: '/' :: '/' :: comment)).trimEnd = [] := by
    rw [beforeComment_cons fun h => absurd h (by decide)]
    rfl
  rw [clean_eq_trim_beforeComment, clean_eq_trim_beforeComment, ← Text.trim_trimEnd,
    trimEnd_beforeComment_append (by simp) hBlank, Text.trim_trimEnd]

theorem clean_comment (comment : Text) : clean ('/' :: '/' :: comment) = [] := by
  rw [clean_eq_trim_beforeComment]
  rfl

theorem clean_trimEnd (t : Text) : clean t.trimEnd = clean t := by
  rw [clean, clean, Text.trim_trimEnd]

theorem clean_eq_self {t : Text} (h : '/' ∉ t) (hHead : ∀ c ∈ t.head?, Text.isBlank c = false)
    (hLast : ∀ c ∈ t.getLast?, Text.isBlank c = false) : clean t = t := by
  rw [clean_eq_trim h, Text.trim_eq_self hHead hLast]

end NodeScaffold.Line
