import NodeScaffold.Proofs.ArmAgreement
import NodeScaffold.Proofs.Splice

/-! # Case lines of a document

In the text of a document that dispatches on tags, a line opens a case exactly if it is the first
line of an arm, and no line that was written for a node opens a switch. So the cases of each switch
can be read off from the text. -/
namespace NodeScaffold
open Code
set_option autoImplicit false

def opensCase (line : Text) : Bool :=
  (Text.ofString "case SyntaxKind::").isPrefixOf line.trimStart

def opensSwitch (line : Text) : Bool :=
  (Text.ofString "switch(").isPrefixOf line.trimStart ||
    (Text.ofString "switch (").isPrefixOf line.trimStart

/-- The lines that open a case, switch by switch. Those before the first switch come first. -/
def casesBySwitch (lines : List Text) : List (List Text) :=
  (lines.splitOnP opensSwitch).map (List.filter opensCase)

structure IsInner (line : Text) : Prop where
  noCase : opensCase line = false
  noSwitch : opensSwitch line = false

@[simp] theorem Text.head?_ofString (s : String) : (ofString s).head? = s.toList.head? := by
  rw [ofString]

theorem isPrefixOf_trimStart {word t : Text} (h : ∀ c ∈ t.head?, Text.isBlank c = false)
    (hWord : ¬word <+: t) : word.isPrefixOf t.trimStart = false := by
  have hTrim : t.trimStart = t := by
    cases t with
    | nil => rfl
    | cons c t => exact List.dropWhile_cons_of_neg (by simp [h c rfl])
  rw [hTrim, ← Bool.not_eq_true, List.isPrefixOf_iff_prefix]
  exact hWord

theorem isInner_of_not_prefix {t : Text} (h : ∀ c ∈ t.head?, Text.isBlank c = false)
    (hCase : ¬Text.ofString "case SyntaxKind::" <+: t) (hSwitch : ¬Text.ofString "switch(" <+: t)
    (hSwitch' : ¬Text.ofString "switch (" <+: t) : IsInner t := by
  constructor
  · exact isPrefixOf_trimStart h hCase
  · rw [opensSwitch, isPrefixOf_trimStart h hSwitch, isPrefixOf_trimStart h hSwitch']
    rfl

/-- The first character tells most inner lines. -/
theorem isInner_of_head {t : Text} {c : Char} (h : t.head? = some c)
    (hc : Text.isBlank c = false ∧ c ≠ 'c' ∧ c ≠ 's') : IsInner t := by
  obtain ⟨rest, rfl⟩ := List.head?_eq_some_iff.mp h
  have hNot {word : Text} {d : Char} (hWord : word.head? = some d) (hd : c ≠ d) :
      ¬word <+: c :: rest := by
    obtain ⟨word, rfl⟩ := List.head?_eq_some_iff.mp hWord
    rintro ⟨more, hMore⟩
    exact hd (List.cons.inj hMore).1.symm
  refine isInner_of_not_prefix ?_ (hNot ?_ hc.2.1) (hNot ?_ hc.2.2) (hNot ?_ hc.2.2)
  · simpa using hc.1
  all_goals simp

theorem isInner_concat {pieces : List Text} {c : Char}
    (h : pieces.head?.bind List.head? = some c)
    (hc : Text.isBlank c = false ∧ c ≠ 'c' ∧ c ≠ 's') : IsInner (Text.concat pieces) := by
  obtain ⟨piece, hPiece, hHead⟩ := Option.bind_eq_some_iff.mp h
  obtain ⟨pieces, rfl⟩ := List.head?_eq_some_iff.mp hPiece
  refine isInner_of_head ?_ hc
  simp [Text.concat, hHead]

theorem isInner_ofString {t : Text} {c : Char} (h : t.head? = some c)
    (hc : Text.isBlank c = false ∧ c ≠ 'c' ∧ c ≠ 's') :
    IsInner (Text.ofString (String.ofList t)) := by
  rw [Text.ofString, String.toList_ofList]
  exact isInner_of_head h hc

theorem isInner_nil : IsInner [] := by
  refine isInner_of_not_prefix (by simp) ?_ ?_ ?_ <;> simp [Text.ofString]

theorem isInner_castLine {type : Text} (h : isWord type) (name value : Text) :
    IsInner (castLine type name value).text := by
  have hType : ∀ c ∈ type, isWordPart c := fun c => isWordPart_of_mem h
  obtain ⟨rest, hText⟩ : ∃ rest, (castLine type name value).text = type ++ '*' :: rest := by
    simp [castLine, CodeLine.line, Text.concat, Text.ofString]
  have hNot {start : Text} {c : Char} (hStart : (start.dropWhile isWordPart).head? = some c)
      (hc : c ≠ '*') : ¬start <+: (castLine type name value).text := by
    rw [hText]
    exact not_isPrefix_of_ne hStart hType (by decide) hc
  refine isInner_of_not_prefix ?_ (@hNot _ ' ' ?_ (by decide)) (@hNot _ '(' ?_ (by decide))
    (@hNot _ ' ' ?_ (by decide))
  · rw [hText]
    cases type with
    | nil => cases h
    | cons c type => simpa using isBlank_of_isWordPart (hType c List.mem_cons_self)
  all_goals with_unfolding_all decide

namespace Code

theorem isInner_compare (field : FieldDecl) :
    IsInner (Comparison.compare .standard field).text :=
  isInner_concat (c := 'i') (by simp) (by decide)

theorem isInner_print (field : FieldDecl) :
    ∀ line ∈ Printing.print .standard field, IsInner line.text := by
  refine List.forall_mem_cons.mpr ⟨?_, List.forall_mem_singleton.mpr ?_⟩
  · exact isInner_concat (c := 'P') (by simp) (by decide)
  · refine isInner_concat (c := 'P') ?_ (by decide)
    cases field.kind .standard <;> simp [Printing.function]

theorem isInner_touch (field : FieldDecl) : IsInner (Touching.touch .standard field).text := by
  refine isInner_concat (c := 'T') ?_ (by decide)
  cases field.kind .standard <;> simp [Touching.function]

namespace TokenSearch

theorem isInner_statement (name : Text) (statement : Statement) :
    IsInner (statement.line .standard name).text := by
  cases statement with
  | returnIf => exact isInner_concat (c := 'i') (by simp) (by decide)
  | declare | declareChoice =>
    exact isInner_concat (c := 'S') (by simp [Conventions.standard]) (by decide)

theorem isInner_checkBlock (name : Text) (check : Check) :
    ∀ line ∈ check.block .standard name, IsInner line.text := by
  cases check with
  | single statement => exact List.forall_mem_singleton.mpr (isInner_statement name statement)
  | guarded condition statements =>
    simp only [Check.block, List.forall_mem_append, List.forall_mem_singleton,
      List.forall_mem_map]
    refine ⟨⟨?_, fun statement _ => isInner_statement name statement⟩, ?_⟩
    · exact isInner_concat (c := 'i') (by simp) (by decide)
    · exact isInner_concat (c := '}') (by simp) (by decide)

end TokenSearch

end Code

namespace Dispatch

/-- What follows the first line of an arm, the only one that shows the tag. -/
def armBody (conv : Conventions) (node : NodeDecl) (d : Dispatch) : Block :=
  (d.arm conv node []).tail

theorem isInner_armBody (d : Dispatch) {node : NodeDecl} (hName : isWord node.name) :
    ∀ line ∈ d.armBody .standard node, IsInner line.text := by
  have hCast := isInner_castLine hName
  have hCastIf : ∀ line ∈ (if node.isBare then [] else [castLine node.name "p" "syntaxBase"]),
      IsInner line.text := by
    split
    · simp
    · exact List.forall_mem_singleton.mpr (hCast _ _)
  have hBreak : IsInner (CodeLine.line ["break;"]).text :=
    isInner_concat (c := 'b') (by simp) (by decide)
  have hClosing : IsInner caseClosing.text := isInner_concat (c := '}') (by simp) (by decide)
  cases d with
  | comparison =>
    simp only [armBody, arm, Comparison.caseBlock, List.cons_append, List.nil_append,
      List.tail_cons, List.forall_mem_cons, List.forall_mem_append, List.forall_mem_map]
    refine ⟨hCast _ _, hCast _ _, fun field _ => isInner_compare field, ?_, hClosing, by simp⟩
    exact isInner_concat (c := 'r') (by simp) (by decide)
  | printing =>
    simp only [armBody, arm, Printing.caseBlock, List.cons_append, List.nil_append,
      List.append_assoc, List.tail_cons, List.forall_mem_cons, List.forall_mem_append,
      List.forall_mem_flatMap]
    refine ⟨hCastIf, ?_, ?_, fun field _ => isInner_print field, ?_, hBreak, hClosing, by simp⟩
    · exact isInner_concat (c := 'P') (by simp) (by decide)
    · exact isInner_concat (c := 'i') (by simp) (by decide)
    · exact isInner_concat (c := 'i') (by simp) (by decide)
  | touching =>
    simp only [armBody, arm, Touching.caseBlock, List.cons_append, List.nil_append,
      List.tail_cons, List.forall_mem_cons, List.forall_mem_append, List.forall_mem_map]
    exact ⟨hCast _ _, fun field _ => isInner_touch field, hBreak, hClosing, by simp⟩
  | search edge =>
    simp only [armBody, arm, TokenSearch.caseBlock, List.cons_append, List.nil_append,
      List.append_assoc, List.tail_cons, List.forall_mem_cons, List.forall_mem_append,
      List.forall_mem_flatMap]
    refine ⟨hCastIf, fun field _ => TokenSearch.isInner_checkBlock field.name _, ?_, hClosing,
      by simp⟩
    exact isInner_concat (c := 'r') (by simp) (by decide)

end Dispatch

theorem trimStart_rowLine (base : Nat) (row : Row) :
    (row.line base).trimStart = row.text.trimStart := by
  rw [Row.line]
  split
  · next hEmpty => rw [List.isEmpty_iff.mp hEmpty]
  · refine List.dropWhile_append_of_pos fun c hc => ?_
    rw [(List.mem_replicate.mp hc).2]
    decide

theorem opensCase_rowLine (base : Nat) (row : Row) :
    opensCase (row.line base) = opensCase row.text := by
  rw [opensCase, trimStart_rowLine, opensCase]

theorem opensSwitch_rowLine (base : Nat) (row : Row) :
    opensSwitch (row.line base) = opensSwitch row.text := by
  rw [opensSwitch, trimStart_rowLine, opensSwitch]

theorem isInner_of_mem_rowsFrom {block : Block} (h : ∀ line ∈ block, IsInner line.text)
    (base depth : Nat) : ∀ line ∈ (block.rowsFrom depth).map (Row.line base), IsInner line := by
  intro line hLine
  obtain ⟨row, hRow, rfl⟩ := List.mem_map.mp hLine
  have hText : row.text ∈ block.map CodeLine.text := by
    rw [← Block.map_text_rowsFrom depth]
    exact List.mem_map_of_mem hRow
  obtain ⟨code, hCode, hEq⟩ := List.mem_map.mp hText
  obtain ⟨hCase, hSwitch⟩ := h code hCode
  rw [hEq] at hCase hSwitch
  exact ⟨by rw [opensCase_rowLine, hCase], by rw [opensSwitch_rowLine, hSwitch]⟩

/-- The lines of an arm: the first one opens a case, and nothing else does, nor a switch. -/
structure IsArm (lines : List Text) : Prop where
  cases : lines.filter opensCase = lines.take 1
  noSwitch : ∀ line ∈ lines, opensSwitch line = false

theorem caseOpening_text (tag : Text) : (caseOpening .standard tag).text =
    'c' :: (Text.ofString "ase SyntaxKind::" ++ (tag ++ Text.ofString ": \x7b")) := by
  simp [caseOpening, CodeLine.opening, Conventions.standard, Text.concat, Text.ofString]

theorem trimStart_caseOpening (tag : Text) :
    Text.trimStart (caseOpening .standard tag).text = (caseOpening .standard tag).text := by
  rw [caseOpening_text]
  rfl

theorem isArm_lines {body : Block} (h : ∀ line ∈ body, IsInner line.text) (tag : Text)
    (base : Nat) : IsArm (Block.lines base (caseOpening .standard tag :: body)) := by
  have hLines : Block.lines base (caseOpening .standard tag :: body) =
      Row.line base ⟨0, (caseOpening .standard tag).text⟩ ::
        (body.rowsFrom 1).map (Row.line base) := rfl
  have hInner := isInner_of_mem_rowsFrom h base 1
  rw [hLines]
  constructor
  · have hCase : opensCase (caseOpening .standard tag).text = true := by
      rw [opensCase, trimStart_caseOpening, caseOpening_text]
      simp [Text.ofString]
    rw [List.filter_cons_of_pos (by rw [opensCase_rowLine, hCase]),
      List.filter_eq_nil_iff.mpr fun line hLine => by simp [(hInner line hLine).noCase]]
    rfl
  · have hSwitch : opensSwitch (caseOpening .standard tag).text = false := by
      rw [opensSwitch, trimStart_caseOpening, caseOpening_text]
      simp [Text.ofString, List.isPrefixOf]
    refine List.forall_mem_cons.mpr ⟨?_, fun line hLine => (hInner line hLine).noSwitch⟩
    rw [opensSwitch_rowLine, hSwitch]

/-- Arms with empty lines between them have the cases of the arms, in their order. -/
theorem cases_intercalate {groups : List (List Text)} (h : ∀ group ∈ groups, IsArm group) :
    (List.intercalate [[]] groups).filter opensCase = groups.flatMap (List.take 1) ∧
      ∀ line ∈ List.intercalate [[]] groups, opensSwitch line = false := by
  induction groups with
  | nil => simp
  | cons group groups ih =>
    obtain ⟨⟨hCases, hSwitch⟩, hRest⟩ := List.forall_mem_cons.mp h
    obtain ⟨ihCases, ihSwitch⟩ := ih hRest
    cases groups with
    | nil => simpa using ⟨hCases, hSwitch⟩
    | cons next groups =>
      rw [List.intercalate_cons_cons]
      constructor
      · rw [List.filter_append, List.filter_append, hCases, ihCases,
          List.filter_cons_of_neg (by simp [isInner_nil.noCase]), List.flatMap_cons]
        simp
      · simp only [List.forall_mem_append, List.forall_mem_singleton]
        exact ⟨⟨hSwitch, isInner_nil.noSwitch⟩, ihSwitch⟩

theorem cases_sectionLines {fragments : List Fragment}
    (h : ∀ fragment ∈ fragments, IsArm fragment.lines) (s : Section) :
    (sectionLines fragments s).filter opensCase =
        (fragments.filter (·.place = s)).flatMap (fun fragment => fragment.lines.take 1) ∧
      ∀ line ∈ sectionLines fragments s, opensSwitch line = false := by
  have hGroups : ∀ group ∈ (fragments.filter (·.place = s)).map Fragment.lines, IsArm group := by
    intro group hGroup
    obtain ⟨fragment, hFragment, rfl⟩ := List.mem_map.mp hGroup
    exact h fragment (List.mem_filter.mp hFragment).1
  have hCases := cases_intercalate hGroups
  rwa [List.flatMap_map] at hCases

theorem casesBySwitch_cons (line : Text) (lines : List Text) :
    casesBySwitch (line :: lines) =
      if opensSwitch line then [] :: casesBySwitch lines
      else (casesBySwitch lines).modifyHead ([line].filter opensCase ++ ·) := by
  rw [casesBySwitch, List.splitOnP_cons_eq_if_modifyHead, casesBySwitch]
  obtain ⟨group, groups, hSplit⟩ :=
    List.exists_cons_of_ne_nil (List.splitOnP_ne_nil opensSwitch lines)
  rw [hSplit]
  split
  · rfl
  · cases hCase : opensCase line <;> simp [hCase]

/-- Lines that open no switch add their cases to the first group of what follows. -/
theorem casesBySwitch_append {lines : List Text} (h : ∀ line ∈ lines, opensSwitch line = false)
    (rest : List Text) :
    casesBySwitch (lines ++ rest) =
      (casesBySwitch rest).modifyHead (lines.filter opensCase ++ ·) := by
  induction lines with
  | nil =>
    rw [List.nil_append]
    cases casesBySwitch rest <;> rfl
  | cons line lines ih =>
    obtain ⟨hLine, hLines⟩ := List.forall_mem_cons.mp h
    have hFilter : (line :: lines).filter opensCase =
        [line].filter opensCase ++ lines.filter opensCase := List.filter_append [line] lines
    rw [List.cons_append, casesBySwitch_cons, hLine, ih hLines, if_neg Bool.false_ne_true,
      List.modifyHead_modifyHead, hFilter]
    congr 1
    funext group
    exact (List.append_assoc ..).symm

namespace Frame
variable {code : Section → List Text} {text : Text} (depth : Nat) (frame : Frame)

theorem casesBySwitch_row (h : IsInner text) :
    casesBySwitch (splice (.row depth text :: frame) code) = casesBySwitch (splice frame code) := by
  have hSwitch : opensSwitch (Row.line 0 ⟨depth, text⟩) = false := by
    rw [opensSwitch_rowLine, h.noSwitch]
  have hCase : opensCase (Row.line 0 ⟨depth, text⟩) = false := by
    rw [opensCase_rowLine, h.noCase]
  change casesBySwitch (Row.line 0 ⟨depth, text⟩ :: splice frame code) = _
  rw [casesBySwitch_cons, hSwitch, if_neg Bool.false_ne_true,
    List.filter_cons_of_neg (by simp [hCase])]
  cases casesBySwitch (splice frame code) <;> rfl

theorem casesBySwitch_switch (h : opensSwitch text) :
    casesBySwitch (splice (.row depth text :: frame) code) =
      [] :: casesBySwitch (splice frame code) := by
  change casesBySwitch (Row.line 0 ⟨depth, text⟩ :: splice frame code) = _
  rw [casesBySwitch_cons, opensSwitch_rowLine, if_pos h]

theorem casesBySwitch_slot (hCode : ∀ s, ∀ line ∈ code s, opensSwitch line = false)
    (s : Section) :
    casesBySwitch (splice (.slot s :: frame) code) =
      (casesBySwitch (splice frame code)).modifyHead ((code s).filter opensCase ++ ·) :=
  casesBySwitch_append (hCode s) (splice frame code)

end Frame

namespace Artifact

/-- A document that dispatches on tags has a switch for each section, and no other cases. -/
theorem casesBySwitch_splice {artifact : Artifact} (h : artifact ≠ .builders)
    {code : Section → List Text} (hCode : ∀ s, ∀ line ∈ code s, opensSwitch line = false) :
    casesBySwitch (artifact.frame.splice code ++ [[]]) =
      [] :: artifact.sections.map fun s => (code s).filter opensCase := by
  have hEnd : artifact.frame.splice code ++ [[]] =
      Frame.splice (artifact.frame ++ [FramePart.gap]) code := by
    rw [Frame.splice, Frame.splice, List.flatMap_append]
    rfl
  have hComparison : opensSwitch "switch(a->GetKind()) \x7b" := by with_unfolding_all decide
  have hPrinting : opensSwitch "switch (syntaxBase->GetKind()) \x7b" := by with_unfolding_all decide
  have hOther : opensSwitch "switch(syntaxBase->GetKind()) \x7b" := by with_unfolding_all decide
  have hNil : casesBySwitch (Frame.splice [] code) = [[]] := rfl
  rw [hEnd]
  cases artifact with
  | builders => exact absurd rfl h
  | equality | printer | toucher | tokenBoundary =>
    simp (disch := first | exact isInner_ofString rfl (by decide) | exact isInner_nil) only
      [frame, Frame.equality, Frame.printer, Frame.toucher, Frame.tokenBoundary,
        Frame.searchFunction, Frame.notice, FramePart.gap, List.cons_append, List.nil_append,
        Frame.casesBySwitch_row, Frame.casesBySwitch_switch _ _ hComparison,
        Frame.casesBySwitch_switch _ _ hPrinting, Frame.casesBySwitch_switch _ _ hOther,
        Frame.casesBySwitch_slot _ hCode, hNil]
    simp

/-- The lines of a document: those of the frame with the code in it, and an empty one. -/
theorem split_fill {artifact : Artifact} {fragments : List Fragment}
    (h : ∀ fragment ∈ fragments, fragment.Fits artifact) :
    (artifact.fill fragments).split '\n' =
      artifact.frame.splice (sectionLines fragments) ++ [[]] := by
  have hUnmarked := unmarked_sectionLines fun fragment hFragment => (h fragment hFragment).body
  have hLines := forall_mem_splice artifact.unmarked_frame (fun t ht => ht.oneLine)
    fun s line hLine => (hUnmarked s line hLine).oneLine
  rw [fill_eq_unlines h, Text.split_unlines hLines]

/-- In a document made of arms, the lines that open a case are the first lines of the arms, in the
order of the fragments and in the switch of their section. -/
theorem casesBySwitch_fill {artifact : Artifact} (h : artifact ≠ .builders)
    {fragments : List Fragment} (hFits : ∀ fragment ∈ fragments, fragment.Fits artifact)
    (hArms : ∀ fragment ∈ fragments, IsArm fragment.lines) :
    casesBySwitch ((artifact.fill fragments).split '\n') =
      [] :: artifact.sections.map fun s =>
        (fragments.filter (·.place = s)).flatMap fun fragment => fragment.lines.take 1 := by
  have hSections := cases_sectionLines hArms
  rw [split_fill hFits, casesBySwitch_splice h fun s => (hSections s).2]
  simp only [(hSections _).1]

end Artifact

end NodeScaffold
