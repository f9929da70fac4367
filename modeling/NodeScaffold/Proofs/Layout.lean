import Mathlib.Logic.Relation
import NodeScaffold.Document.Basic
import NodeScaffold.Proofs.Numbering
import NodeScaffold.Proofs.ReaderInvariant

/-! # The layout of a source

Blanks around a line, comments and empty lines are gone before a line is read, and with them the
only trace of how a source was laid out is in the line numbers. Documents do not show those, so an
edit that changes the layout alone leaves every document as it is. -/
namespace NodeScaffold
set_option autoImplicit false

/-- One edit of the layout of a source, given by its lines. -/
inductive LayoutEdit : List Text → List Text → Prop
  | pad (before after : List Text) (t : Text) {u v : Text}
      (hu : ∀ c ∈ u, Text.isBlank c ∧ c ≠ '\n') (hv : ∀ c ∈ v, Text.isBlank c ∧ c ≠ '\n') :
      LayoutEdit (before ++ t :: after) (before ++ (u ++ t ++ v) :: after)
  | comment (before after : List Text) (t : Text) {u : Text} (hu : '\n' ∉ u) :
      LayoutEdit (before ++ t :: after) (before ++ (t ++ Text.ofString " //" ++ u) :: after)
  | insertBlank (before after : List Text) {u : Text}
      (hu : ∀ c ∈ u, Text.isBlank c ∧ c ≠ '\n') :
      LayoutEdit (before ++ after) (before ++ u :: after)
  | insertComment (before after : List Text) {u v : Text}
      (hu : ∀ c ∈ u, Text.isBlank c ∧ c ≠ '\n') (hv : '\n' ∉ v) :
      LayoutEdit (before ++ after) (before ++ (u ++ Text.ofString "//" ++ v) :: after)

def Text.withReturns (t : Text) : Text :=
  t.flatMap fun c => if c = '\n' then ['\r', '\n'] else [c]

namespace Line

theorem contentsOf_cons_congr {t u : Text} (h : clean t = clean u) (lines : List Text) :
    contentsOf (t :: lines) = contentsOf (u :: lines) := by
  simp [contentsOf, h]

theorem contentsOf_cons_of_clean_eq_nil {t : Text} (h : clean t = []) (lines : List Text) :
    contentsOf (t :: lines) = contentsOf lines := by
  simp [contentsOf, h]

/-- A carriage return before a line break is a blank at the end of its line. -/
theorem map_clean_split_withReturns (t : Text) :
    (t.withReturns.split '\n').map clean = (t.split '\n').map clean := by
  have hEnds : (t.withReturns.split '\n').map Text.trimEnd = (t.split '\n').map Text.trimEnd := by
    induction t with
    | nil => rfl
    | cons c t ih =>
      by_cases hc : c = '\n'
      · subst hc
        have hSplit : (Text.withReturns ('\n' :: t)).split '\n' =
            ['\r'] :: Text.split '\n' (Text.withReturns t) := rfl
        rw [hSplit, Text.split_cons, if_pos rfl, List.map_cons, List.map_cons, ih]
        rfl
      · have hSplit : Text.withReturns (c :: t) = c :: Text.withReturns t := by
          simp [Text.withReturns, hc]
        obtain ⟨p, ps, hp⟩ :=
          List.exists_cons_of_ne_nil (Text.split_ne_nil '\n' (Text.withReturns t))
        obtain ⟨q, qs, hq⟩ := List.exists_cons_of_ne_nil (Text.split_ne_nil '\n' t)
        rw [hp, hq, List.map_cons, List.map_cons] at ih
        obtain ⟨hHead, hTail⟩ := List.cons.inj ih
        rw [hSplit, Text.split_cons, Text.split_cons, if_neg hc, if_neg hc, hp, hq]
        simp only [Text.consPiece, List.map_cons]
        rw [Text.trimEnd_cons_congr hHead, hTail]
  have hClean := congrArg (List.map clean) hEnds
  simpa [Function.comp_def, clean_trimEnd] using hClean

end Line

namespace LayoutEdit
variable {lines lines' : List Text}

theorem contentsOf_eq (h : LayoutEdit lines lines') :
    Line.contentsOf lines' = Line.contentsOf lines := by
  cases h with
  | pad before after t hu hv =>
    rw [Line.contentsOf_append, Line.contentsOf_append]
    refine congrArg _ (Line.contentsOf_cons_congr ?_ after)
    rw [Line.clean_append_blanks fun c hc => (hv c hc).1,
      Line.clean_blanks_append fun c hc => (hu c hc).1]
  | comment before after t hu =>
    rw [Line.contentsOf_append, Line.contentsOf_append]
    refine congrArg _ (Line.contentsOf_cons_congr ?_ after)
    rw [Text.ofString]
    simpa using Line.clean_append_comment t _
  | insertBlank before after hu =>
    rw [Line.contentsOf_append, Line.contentsOf_append]
    refine congrArg _ (Line.contentsOf_cons_of_clean_eq_nil ?_ after)
    exact Line.clean_append_blanks (fun c hc => (hu c hc).1) []
  | insertComment before after hu hv =>
    rw [Line.contentsOf_append, Line.contentsOf_append]
    refine congrArg _ (Line.contentsOf_cons_of_clean_eq_nil ?_ after)
    rw [List.append_assoc, Line.clean_blanks_append (fun c hc => (hu c hc).1), Text.ofString]
    exact Line.clean_comment _

theorem ne_nil (h : LayoutEdit lines lines') : lines' ≠ [] := by
  cases h <;> simp

theorem newline_notMem (h : LayoutEdit lines lines') (hLines : ∀ t ∈ lines, '\n' ∉ t) :
    ∀ t ∈ lines', '\n' ∉ t := by
  have hBlanks {u : Text} (hu : ∀ c ∈ u, Text.isBlank c ∧ c ≠ '\n') : '\n' ∉ u :=
    fun hMem => (hu '\n' hMem).2 rfl
  cases h with
  | pad before after t hu hv =>
    simp only [List.forall_mem_append, List.forall_mem_cons] at hLines ⊢
    refine ⟨hLines.1, ?_, hLines.2.2⟩
    simp [hBlanks hu, hLines.2.1, hBlanks hv]
  | comment before after t hu =>
    simp only [List.forall_mem_append, List.forall_mem_cons] at hLines ⊢
    refine ⟨hLines.1, ?_, hLines.2.2⟩
    simp [hLines.2.1, hu, Text.ofString]
  | insertBlank before after hu =>
    simp only [List.forall_mem_append, List.forall_mem_cons] at hLines ⊢
    exact ⟨hLines.1, hBlanks hu, hLines.2⟩
  | insertComment before after hu hv =>
    simp only [List.forall_mem_append, List.forall_mem_cons] at hLines ⊢
    refine ⟨hLines.1, ?_, hLines.2⟩
    simp [hBlanks hu, hv, Text.ofString]

/-- Any number of edits of a source leaves lines that make up a source of the same contents. -/
theorem contents_join_eq {source : Text}
    (h : Relation.ReflTransGen LayoutEdit (source.split '\n') lines) :
    Line.contents (Text.join ['\n'] lines) = Line.contents source := by
  have hInvariant : lines ≠ [] ∧ (∀ t ∈ lines, '\n' ∉ t) ∧
      Line.contentsOf lines = Line.contents source := by
    induction h with
    | refl => exact ⟨Text.split_ne_nil _ _, fun t => Text.notMem_of_mem_split, rfl⟩
    | tail _ hEdit ih =>
      obtain ⟨-, hLines, hContents⟩ := ih
      exact ⟨hEdit.ne_nil, hEdit.newline_notMem hLines, hEdit.contentsOf_eq.trans hContents⟩
  obtain ⟨hNonempty, hLines, hContents⟩ := hInvariant
  rw [← hContents, Line.contents, Text.split_join hNonempty hLines]

end LayoutEdit

/-- Both sources give the same documents, one for each artifact. -/
def SameDocuments (conv : Conventions) (source source' : Text) : Prop :=
  ∃ documents, documents.map Document.artifact = Artifact.all ∧
    Document.allOf conv (Catalog.ofSource conv source) Artifact.all = .ok documents ∧
    Document.allOf conv (Catalog.ofSource conv source') Artifact.all = .ok documents

theorem Document.ofCatalog_congr (conv : Conventions) {catalog catalog' : Catalog}
    (h : catalog.toList = catalog'.toList) : ofCatalog conv catalog = ofCatalog conv catalog' := by
  funext artifact
  rw [ofCatalog, ofCatalog, h]

/-- All documents of a source can be written. -/
theorem Document.exists_allOf_ofSource_eq_ok (conv : Conventions) (source : Text) :
    ∃ documents, documents.map Document.artifact = Artifact.all ∧
      allOf conv (Catalog.ofSource conv source) Artifact.all = .ok documents := by
  apply exists_mapM_eq_ok
  intro artifact _
  obtain ⟨fragments, hFragments⟩ := Artifact.exists_fragments_eq_ok conv
    (fun node hNode => (Catalog.wellFormed_of_mem_ofSource hNode).1.tags) artifact
  exact ⟨⟨artifact, artifact.fill fragments⟩, rfl, ofCatalog_eq_ok hFragments⟩

theorem sameDocuments_of_contents_eq (conv : Conventions) {source source' : Text}
    (h : Line.contents source = Line.contents source') : SameDocuments conv source source' := by
  obtain ⟨documents, hArtifacts, hAll⟩ := Document.exists_allOf_ofSource_eq_ok conv source
  refine ⟨documents, hArtifacts, hAll, ?_⟩
  have hNodes : (Catalog.ofSource conv source').toList = (Catalog.ofSource conv source).toList := by
    rw [Catalog.toList_ofSource_eq_nodes, Catalog.toList_ofSource_eq_nodes, h]
  rw [Document.allOf, Document.ofCatalog_congr conv hNodes]
  exact hAll

/-- Sources whose cleaned lines agree, empty ones left out, give the same documents. So no number of
edits of the layout changes a document, nor do carriage returns before the line breaks. -/
theorem documents_layout_invariant (conv : Conventions) :
    (∀ source source' : Text,
      (Line.cleanAll source).filter (fun t => !t.isEmpty) =
        (Line.cleanAll source').filter (fun t => !t.isEmpty) →
      SameDocuments conv source source') ∧
    (∀ (source : Text) (lines : List Text),
      Relation.ReflTransGen LayoutEdit (source.split '\n') lines →
      SameDocuments conv source (Text.join ['\n'] lines)) ∧
    ∀ source : Text, SameDocuments conv source source.withReturns := by
  refine ⟨?_, ?_, ?_⟩
  · intro source source' hContents
    exact sameDocuments_of_contents_eq conv hContents
  · intro source lines hEdits
    exact sameDocuments_of_contents_eq conv (LayoutEdit.contents_join_eq hEdits).symm
  · intro source
    apply sameDocuments_of_contents_eq conv
    rw [Line.contents, Line.contents, Line.contentsOf, Line.contentsOf,
      Line.map_clean_split_withReturns]

def plainLines : List Text :=
  ["abstract", "struct ExprSyntax : SyntaxBase \x7b", "\x7d;", "struct NegSyntax : ExprSyntax \x7b",
    "VALID_SYNTAX_KINDS = \x7b", "SyntaxKind::Minus,", "\x7d;", "\x7d;"]

/-- The same lines with a comment behind the lone mark, an empty line in the tag block, and a tag
that is moved to the right and explained. -/
def editedLines : List Text :=
  ["abstract", " // not built", "struct ExprSyntax : SyntaxBase \x7b", "\x7d;",
    "struct NegSyntax : ExprSyntax \x7b", "VALID_SYNTAX_KINDS = \x7b", "",
    "\tSyntaxKind::Minus, // unary / only", "\x7d;", "\x7d;"]

theorem documents_layout_invariant_plainLines :
    Relation.ReflTransGen LayoutEdit ((Text.join ['\n'] plainLines).split '\n') editedLines ∧
    SameDocuments .standard (Text.join ['\n'] plainLines) (Text.join ['\n'] editedLines) := by
  have hSplit : (Text.join ['\n'] plainLines).split '\n' = plainLines :=
    Text.split_join (by simp [plainLines]) (by simp [plainLines, Text.ofString])
  have hMark : LayoutEdit plainLines (editedLines.take 2 ++ plainLines.drop 1) := by
    convert @LayoutEdit.insertComment (plainLines.take 1) (plainLines.drop 1) [' '] " not built"
      (List.forall_mem_singleton.mpr (by decide)) (by simp [Text.ofString]) using 1 <;>
      simp [plainLines, editedLines, Text.ofString]
  have hBlank : LayoutEdit (editedLines.take 2 ++ plainLines.drop 1)
      (editedLines.take 7 ++ plainLines.drop 5) := by
    convert @LayoutEdit.insertBlank (editedLines.take 6) (plainLines.drop 5) []
      (by simp) using 1 <;> simp [plainLines, editedLines, Text.ofString]
  have hMoved : LayoutEdit (editedLines.take 7 ++ plainLines.drop 5)
      (editedLines.take 7 ++ Text.ofString "\tSyntaxKind::Minus," :: plainLines.drop 6) := by
    convert @LayoutEdit.pad (editedLines.take 7) (plainLines.drop 6) "SyntaxKind::Minus," ['\t'] []
      (List.forall_mem_singleton.mpr (by decide)) (by simp) using 1 <;>
      simp [plainLines, editedLines, Text.ofString]
  have hExplained : LayoutEdit
      (editedLines.take 7 ++ Text.ofString "\tSyntaxKind::Minus," :: plainLines.drop 6)
      editedLines := by
    convert @LayoutEdit.comment (editedLines.take 7) (plainLines.drop 6) "\tSyntaxKind::Minus,"
      " unary / only" (by simp [Text.ofString]) using 1
    simp [plainLines, editedLines, Text.ofString]
  have hEdits : Relation.ReflTransGen LayoutEdit
      ((Text.join ['\n'] plainLines).split '\n') editedLines := by
    rw [hSplit]
    exact .tail (.tail (.tail (.single hMark) hBlank) hMoved) hExplained
  exact ⟨hEdits, (documents_layout_invariant .standard).2.1 _ _ hEdits⟩

end NodeScaffold
