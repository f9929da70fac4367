import Mathlib.Data.List.Forall2
import NodeScaffold.Log.Findings
import NodeScaffold.Proofs.Texts

/-! # The normal form of a source

Cleaning a line leaves the part before its comment, without the blanks around that part. Nothing of
a cleaned line can be cut or trimmed once more, and no line is lost or broken in two; so a cleaned
source is its own cleaned form, and it is read like the source itself. -/
namespace NodeScaffold
set_option autoImplicit false

namespace Line

/-- What cleaning leaves of a line. Between the blanks in front and the comment at the end, it is a
text that has nothing to be cut or trimmed. -/
structure CleansTo (line cleaned : Text) : Prop where
  oneLine : '\n' ∉ cleaned
  uncommented : ¬ ['/', '/'] <:+: cleaned
  first : ∀ c ∈ cleaned.head?, Text.isBlank c = false
  last : ∀ c ∈ cleaned.getLast?, Text.isBlank c = false
  part : cleaned <:+: line
  kept : ∃ before after comment, line = before ++ cleaned ++ after ++ comment ∧
    (∀ c ∈ before, Text.isBlank c) ∧ (∀ c ∈ after, Text.isBlank c) ∧
    (comment = [] ∨ ['/', '/'] <+: comment) ∧
    ¬ ['/', '/'] <:+: before ++ cleaned ++ after ++ comment.take 1

theorem cleansTo_clean {line : Text} (h : '\n' ∉ line) : CleansTo line (clean line) := by
  obtain ⟨comment, hLine, hComment, hNone⟩ := exists_eq_beforeComment_append line
  obtain ⟨before, after, hBefore, hAfter, hKept⟩ := Text.exists_eq_trim_append (beforeComment line)
  rw [← clean_eq_trim_beforeComment] at hKept
  have hPart : clean line <:+: beforeComment line := ⟨before, after, hKept.symm⟩
  have hWhole : clean line <:+: line := hPart.trans (beforeComment_isPrefix line).isInfix
  refine ⟨fun hMem => h (hWhole.subset hMem), fun hSlashes => ?_, ?_,
    Text.isBlank_of_mem_getLast?_trimEnd _, hWhole, before, after, comment, ?_, hBefore, hAfter,
    hComment, ?_⟩
  · exact hNone (hSlashes.trans (hPart.trans (List.prefix_append _ _).isInfix))
  · rw [clean_eq_trim_beforeComment]
    exact Text.isBlank_of_mem_head?_trim _
  · rw [← hKept, ← hLine]
  · rwa [← hKept]

theorem CleansTo.clean_eq_self {line cleaned : Text} (h : CleansTo line cleaned) :
    clean cleaned = cleaned := by
  rw [clean_eq_trim_beforeComment, beforeComment_eq_self_of_not_isInfix h.uncommented,
    Text.trim_eq_self h.first h.last]

theorem forall₂_cleanAll (source : Text) :
    List.Forall₂ CleansTo (source.split '\n') (cleanAll source) := by
  rw [cleanAll, List.forall₂_map_right_iff, List.forall₂_same]
  exact fun line hLine => cleansTo_clean (Text.notMem_of_mem_split hLine)

theorem cleanAll_cleanText (source : Text) : cleanAll (cleanText source) = cleanAll source := by
  have hNewline : Text.ofString "\n" = ['\n'] := by
    rw [Text.ofString]
    rfl
  have hCleaned : ∀ cleaned ∈ cleanAll source, ∃ line, CleansTo line cleaned := by
    intro cleaned hMem
    obtain ⟨line, hLine, rfl⟩ := List.mem_map.mp hMem
    exact ⟨line, cleansTo_clean (Text.notMem_of_mem_split hLine)⟩
  have hSplit : (cleanText source).split '\n' = cleanAll source := by
    rw [cleanText, hNewline]
    apply Text.split_join
    · simp [cleanAll, Text.split_ne_nil]
    · intro cleaned hMem
      obtain ⟨line, hLine⟩ := hCleaned cleaned hMem
      exact hLine.oneLine
  have hKept : ∀ cleaned ∈ cleanAll source, clean cleaned = id cleaned := by
    intro cleaned hMem
    obtain ⟨line, hLine⟩ := hCleaned cleaned hMem
    exact hLine.clean_eq_self
  calc
    cleanAll (cleanText source) = (cleanAll source).map clean := by rw [← hSplit, cleanAll]
    _ = (cleanAll source).map id := List.map_congr_left hKept
    _ = cleanAll source := List.map_id _

end Line

/-- Cleaning goes line by line and has nothing left to do on what it has cleaned. So a cleaned source
declares the same nodes as the source, and the log tells the same of it, on the same lines. -/
theorem cleanText_normal (source : Text) :
    (∃ lines, Text.join ['\n'] lines = source ∧ (∀ line ∈ lines, '\n' ∉ line) ∧
      List.Forall₂ Line.CleansTo lines (Line.cleanAll source)) ∧
    Line.cleanAll (Line.cleanText source) = Line.cleanAll source ∧
    Line.cleanText (Line.cleanText source) = Line.cleanText source ∧
    ∀ conv : Conventions,
      Catalog.ofSource conv (Line.cleanText source) = Catalog.ofSource conv source ∧
      Event.ofSource conv (Line.cleanText source) = Event.ofSource conv source := by
  have hAll := Line.cleanAll_cleanText source
  refine ⟨⟨source.split '\n', Text.join_split '\n' source, ?_, Line.forall₂_cleanAll source⟩, hAll,
    ?_, ?_⟩
  · exact fun line hLine => Text.notMem_of_mem_split hLine
  · rw [Line.cleanText, hAll, Line.cleanText]
  · intro conv
    have hLines : Line.ofSource (Line.cleanText source) = Line.ofSource source := by
      rw [Line.ofSource, hAll, Line.ofSource]
    have hFindings : Finding.ofSource conv (Line.cleanText source) =
        Finding.ofSource conv source := by
      rw [Finding.ofSource, hLines, Finding.ofSource]
    constructor
    · rw [Catalog.ofSource, hFindings, Catalog.ofSource]
    · simp only [Event.ofSource, hFindings]

end NodeScaffold
