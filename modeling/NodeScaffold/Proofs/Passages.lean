import NodeScaffold.Proofs.Delimiters
import NodeScaffold.Proofs.HeaderBody
import NodeScaffold.Proofs.Numbering
import NodeScaffold.Proofs.RoundTrip

/-! # Passages of the reader over texts

Since numbers do not matter to the nodes, a run over a source is a run over its contents, and a
statement on the line of a header counts as a text of its own. A passage says where such a run
starts, where it ends and which nodes it adds; unlike a run over written lines it may end
anywhere. -/
namespace NodeScaffold
open Declaration
set_option autoImplicit false

def Reading.onTexts (conv : Conventions) (mode : Mode) (texts : List Text) : Reading :=
  (texts.map fun t => (⟨0, t⟩ : Line)).foldl (read conv) ⟨mode, []⟩

/-- Reading the texts leads from one mode to the other and adds the given nodes. -/
structure Passes (conv : Conventions) (mode : Mode) (texts : List Text) (mode' : Mode)
    (nodes : List NodeDecl) : Prop where
  ends : (Reading.onTexts conv mode texts).mode = mode'
  adds : (Reading.onTexts conv mode texts).nodes conv = nodes

theorem Reading.onTexts_append (conv : Conventions) (mode : Mode) (ts us : List Text) :
    onTexts conv mode (ts ++ us) =
      (onTexts conv mode ts).andThen fun mode => onTexts conv mode us := by
  rw [onTexts, List.map_append, List.foldl_append, foldl_read_eq_andThen]
  rfl

namespace Passes
variable {conv : Conventions} {mode mode' mode'' : Mode} {ts us : List Text}
  {nodes nodes' : List NodeDecl}

theorem nil : Passes conv mode [] mode [] := ⟨rfl, rfl⟩

theorem append (h : Passes conv mode ts mode' nodes) (h' : Passes conv mode' us mode'' nodes') :
    Passes conv mode (ts ++ us) mode'' (nodes ++ nodes') := by
  have hAppend := Reading.onTexts_append conv mode ts us
  constructor
  · rw [hAppend, Reading.andThen, h.ends]
    exact h'.ends
  · rw [hAppend, Reading.nodes_andThen, h.ends, h.adds, h'.adds]

/-- A passage ends where its first part has led to and adds the nodes of both parts. -/
theorem exists_of_append (h : Passes conv mode (ts ++ us) mode'' nodes) :
    ∃ mode' first last, Passes conv mode ts mode' first ∧ Passes conv mode' us mode'' last ∧
      nodes = first ++ last := by
  obtain ⟨hEnds, hAdds⟩ := h
  rw [Reading.onTexts_append] at hEnds hAdds
  rw [Reading.nodes_andThen] at hAdds
  exact ⟨_, _, _, ⟨rfl, rfl⟩, ⟨hEnds, rfl⟩, hAdds.symm⟩

/-- A text that leaves no statements is passed in one step. -/
theorem step {t : Text} {found : List Finding}
    (h : Step.of conv mode ⟨0, t⟩ = { mode := mode', findings := found }) :
    Passes conv mode [t] mode' (found.filterMap (·.node? conv)) := by
  have hLine := Reading.ofLine_eq_step (congrArg Step.inner h)
  rw [h] at hLine
  have hRead : Reading.onTexts conv mode [t] = ⟨mode', found⟩ := by
    simp [Reading.onTexts, Reading.read, Reading.andThen, hLine]
  exact ⟨by rw [hRead], by rw [hRead]; rfl⟩

/-- A header outside of every declaration is passed with the statements on its line. -/
theorem header {t name base body : Text}
    (hMark : (TokenLine.ofText t).startsWith conv.abstractWord = false)
    (hFind : Header.find? (TokenLine.ofText t) = some ⟨name, some base, body⟩)
    (h : Passes conv (.body { name, base, line := 0 }) (bodyStatements body) mode' nodes) :
    Passes conv .between [t] mode' nodes := by
  have hRead : Reading.onTexts conv .between [t] =
      Reading.onTexts conv (.body { name, base, line := 0 }) (bodyStatements body) := by
    have hLine := @Reading.read_header conv {} rfl 0 t name base body hMark hFind
    simpa [Reading.onTexts, Reading.andThen] using hLine
  exact ⟨hRead ▸ h.ends, hRead ▸ h.adds⟩

/-- The nodes of a source whose contents are passed, wherever the reader ends. -/
theorem toList_ofSource {source : Text}
    (h : Passes conv .between (Line.contents source) mode nodes) :
    (Catalog.ofSource conv source).toList = nodes := by
  rw [Catalog.toList_ofSource_eq_nodes]
  exact h.adds

end Passes

/-- A written line is passed as what is left of it. -/
theorem Reads.passes {conv : Conventions} {mode mode' : Mode} {t : Text} {nodes : List NodeDecl}
    (h : Reads conv mode [t] mode' nodes) :
    Passes conv mode (Line.contentsOf [t]) mode' nodes := by
  obtain ⟨found, hFound, hRead⟩ := h 0 []
  have hTexts : Reading.onTexts conv mode (Line.contentsOf [t]) = ⟨mode', found⟩ := by
    rw [Reading.readWritten, Reading.readWritten] at hRead
    simp only [List.nil_append] at hRead
    rw [← hRead]
    cases hClean : Line.clean t <;> simp [Reading.onTexts, Line.contentsOf, hClean]
  exact ⟨by rw [hTexts], by rw [hTexts]; exact hFound⟩

theorem Line.contents_join {lines : List Text} (h : ∀ t ∈ lines, '\n' ∉ t) :
    contents (Text.join ['\n'] lines) = contentsOf lines := by
  by_cases hNil : lines = []
  · subst hNil
    rfl
  · rw [contents, Text.split_join hNil h]

namespace Declaration

/-- The header of a declaration without its brace. -/
theorem exists_header_eq (decl : Declaration) : ∃ stem, decl.header = stem ++ ['\x7b'] ∧
    stem.lexemes = [(.structWord, Text.ofString "struct"), (.ident, decl.name.text),
      (.colon, [':']), (.ident, decl.base.text)] := by
  let stem := Text.ofString "struct" ++ ' ' :: (decl.name.text ++ ' ' :: ':' :: ' ' ::
    (decl.base.text ++ [' ']))
  have hHeader : decl.header = stem ++ ['\x7b'] := by simp [header_eq, stem]
  refine ⟨stem, hHeader, ?_⟩
  have hLexemes := decl.lexemes_header
  rw [hHeader, Text.lexemes_append_mark (by decide), Text.lexemes_nil] at hLexemes
  simpa using congrArg List.dropLast hLexemes

theorem find?_header_append (decl : Declaration) (t : Text) :
    Header.find? (TokenLine.ofText (decl.header ++ t)) =
      some ⟨decl.name.text, some decl.base.text, t.trim⟩ := by
  obtain ⟨stem, hStem, hLexemes⟩ := decl.exists_header_eq
  rw [hStem, List.append_assoc]
  exact Header.find?_ofText_append_brace t hLexemes

theorem startsWith_header_append (decl : Declaration) (t word : Text) :
    (TokenLine.ofText (decl.header ++ t)).startsWith word = false := by
  obtain ⟨stem, hStem, hLexemes⟩ := decl.exists_header_eq
  rw [hStem, List.append_assoc, TokenLine.startsWith_ofText, List.singleton_append,
    Text.lexemes_append_mark (by decide), hLexemes]
  rfl

/-- In a body, a header is one of the lines that mean nothing. -/
theorem isBodyNoise_header (decl : Declaration) (node : Text) : IsBodyNoise node decl.header := by
  have hField : FieldDecl.ofLine? (TokenLine.ofText decl.header) = none := by
    rw [Option.eq_none_iff_forall_ne_some]
    intro field h
    obtain ⟨before, name, semicolon, -, hLexemes, -⟩ := FieldDecl.ofLine?_ofText_eq_some_iff.mp h
    have hLast := congrArg List.getLast? (hLexemes.symm.trans decl.lexemes_header)
    simp at hLast
  have hClose : ¬closing <+: decl.header := by
    rintro ⟨rest, hRest⟩
    rw [header_eq] at hRest
    simp [closing, Text.ofString] at hRest
  rw [IsBodyNoise, decl.clean_header]
  simp only [decl.startsWith_header]
  exact ⟨decl.notMem_header (by decide) (by decide), hField, trivial, by simp, hClose⟩

theorem contentsOf_header (decl : Declaration) :
    Line.contentsOf [decl.header] = [decl.header] := by
  simp [Line.contentsOf, decl.clean_header, decl.header_ne_nil]

end Declaration

def tokenType : WrittenType := sampleToken

def tokenMember (name : Name) : Member := ⟨tokenType, name⟩

theorem isName_syntaxBase : isName "SyntaxBase" := by with_unfolding_all decide

theorem isName_exprSyntax : isName "ExprSyntax" := by with_unfolding_all decide

theorem isName_nameSyntax : isName "NameSyntax" := by with_unfolding_all decide

theorem isName_start : isName "start" := by with_unfolding_all decide

theorem isName_word : isName "word" := by with_unfolding_all decide

/-- What follows a header on its line is passed before the next line, statement by statement. -/
theorem passes_header_append (decl : Declaration) {t : Text} {us : List Text} {mode : Mode}
    {nodes : List NodeDecl}
    (h : Passes .standard (.body { name := decl.name.text, base := decl.base.text, line := 0 })
      (bodyStatements t ++ us) mode nodes) :
    Passes .standard .between ((decl.header ++ t) :: us) mode nodes := by
  obtain ⟨mode', first, last, hFirst, hLast, rfl⟩ := h.exists_of_append
  rw [← bodyStatements_trim] at hFirst
  have hHeader := Passes.header (decl.startsWith_header_append t _) (decl.find?_header_append t)
    hFirst
  exact hHeader.append hLast

/-- A header on a line of its own opens a body. -/
theorem passes_header (decl : Declaration) :
    Passes .standard .between (Line.contentsOf [decl.header])
      (.body { name := decl.name.text, base := decl.base.text, line := 0 }) [] := by
  rw [decl.contentsOf_header, ← List.append_nil decl.header]
  exact passes_header_append decl Passes.nil

theorem passes_members (draft : Draft) (members : List Member) :
    Passes .standard (.body draft) (Line.contentsOf (members.map Member.line))
      (.body { draft with fields := draft.fields ++ members.map Member.field }) [] := by
  induction members generalizing draft with
  | nil =>
    rw [List.map_nil, List.map_nil, List.append_nil]
    exact Passes.nil
  | cons member members ih =>
    have hBoth := (reads_member draft member).passes.append (ih (draft.addField member.field))
    rw [List.map_cons, ← List.singleton_append, Line.contentsOf_append]
    simpa [Draft.addField] using hBoth

/-- The body of a declaration without a tag block, one statement after the other. -/
theorem passes_body {decl : Declaration} (h : decl.tags? = none) :
    Passes .standard (.body { name := decl.name.text, base := decl.base.text, line := 0 })
      (Line.contentsOf (decl.members.map Member.line ++ [closing])) .between [decl.node] := by
  have hBoth := (passes_members { name := decl.name.text, base := decl.base.text, line := 0 }
    decl.members).append (reads_closing _).passes
  rw [Line.contentsOf_append, ← closedNode_eq_node decl 0 false, h]
  exact hBoth

end NodeScaffold
