import NodeScaffold.Proofs.ArmAgreement
import NodeScaffold.Proofs.ReaderInvariant

/-! # Stamps of builders

The code of a builder assigns a tag to the node that it builds. Of all the lines of a builder only
one looks like such an assignment, whatever the fields of the node are called. -/
namespace NodeScaffold
set_option autoImplicit false

def stampHead : Text := "retn->_kind = SyntaxKind::"

/-- The tag that a line of a builder assigns to the node it builds. -/
def CodeLine.stamp? (line : CodeLine) : Option Text :=
  (line.text.dropHead? stampHead).bind (Text.dropEnd? · [';'])

def Block.stamps (block : Block) : List Text := block.filterMap CodeLine.stamp?

namespace Block

@[simp] theorem stamps_append (block block' : Block) :
    stamps (block ++ block') = block.stamps ++ block'.stamps := List.filterMap_append

theorem stamps_cons {line : CodeLine} (h : ¬stampHead <+: line.text) (block : Block) :
    stamps (line :: block) = block.stamps := by
  refine List.filterMap_cons_none ?_
  rw [CodeLine.stamp?, Text.dropHead?, if_neg]
  · rfl
  · simpa using h

theorem stamps_eq_nil {block : Block} (h : ∀ line ∈ block, ¬stampHead <+: line.text) :
    block.stamps = [] := by
  induction block with
  | nil => rfl
  | cons line block ih =>
    obtain ⟨hLine, hBlock⟩ := List.forall_mem_cons.mp h
    rw [stamps_cons hLine, ih hBlock]

end Block

theorem stampHead_eq : stampHead = 'r' :: 'e' :: 't' :: 'n' :: '-' :: '>' ::
    (Text.ofString "_kind" ++ ' ' :: '=' :: ' ' :: 'S' :: Text.ofString "yntaxKind::") := by
  simp [stampHead, Text.ofString]

theorem not_stampHead_of_take {t : Text} (h : t.take 5 ≠ ['r', 'e', 't', 'n', '-']) :
    ¬stampHead <+: t := by
  rintro ⟨rest, rfl⟩
  rw [stampHead_eq] at h
  exact h rfl

/-- A word is followed by an arrow in a stamp alone. -/
theorem not_stampHead_of_word {word rest : Text} {c : Char} (hWord : isWord word)
    (hc : isWordPart c = false) (hNe : c ≠ '-') : ¬stampHead <+: word ++ c :: rest := by
  refine not_isPrefix_of_ne (c := '-') ?_ (fun c => isWordPart_of_mem hWord) hc hNe.symm
  rw [stampHead_eq]
  rfl

theorem eq_access_of_prefix {t rest : Text} (ht : ∀ c ∈ t, Text.isBlank c = false)
    (h : stampHead <+: t ++ ' ' :: rest) : t = Text.ofString "retn->_kind" := by
  obtain ⟨more, hMore⟩ := h
  have hHead : stampHead ++ more =
      Text.ofString "retn->_kind" ++ ' ' :: (Text.ofString "= SyntaxKind::" ++ more) := by
    simp [stampHead, Text.ofString]
  have hAccess : ∀ c ∈ Text.ofString "retn->_kind", !Text.isBlank c :=
    List.all_eq_true.mp (by with_unfolding_all decide)
  have hBlank : (!Text.isBlank ' ') = false := by decide
  rw [hHead] at hMore
  exact (span_append_cancel hAccess (by simpa using ht) (by simpa using hBlank)
    (by simpa using hBlank) hMore).1.symm

namespace Code.Construction
variable {node : NodeDecl} {field : FieldDecl}

/-- A slot is declared with a type that has no blanks and is no access to the tag. -/
theorem not_stampHead_slotLine (hType : ∀ c ∈ field.type, Text.isBlank c = false) :
    ¬stampHead <+: (slotLine .standard field).text := by
  have hText : (slotLine .standard field).text =
      slotOf .standard field ++ ' ' :: (field.name ++ Text.ofString " \x7b\x7d;") := by
    simp [slotLine, CodeLine.line, Text.concat, Text.ofString]
  rw [hText, slotOf]
  cases hKind : field.kind .standard with
  | token | nodeList | separatedList =>
    refine not_stampHead_of_take ?_
    simp [slotFor, Conventions.standard, Text.concat, Text.ofString]
  | tokenList =>
    intro hPrefix
    have hAccess : field.type = Text.ofString "retn->_kind" := eq_access_of_prefix hType hPrefix
    rw [FieldDecl.kind, hAccess] at hKind
    exact absurd hKind (by with_unfolding_all decide)
  | node =>
    have hBuilder : ∀ c ∈ Text.ofString "Builder*", Text.isBlank c = false := by
      intro c hc
      have hAll : (Text.ofString "Builder*").all (!Text.isBlank ·) := by with_unfolding_all decide
      simpa only [Bool.not_eq_true'] using List.all_eq_true.mp hAll c hc
    have hPointee : ∀ c ∈ (field.type.dropEnd? ['*']).getD field.type, Text.isBlank c = false := by
      rw [Text.dropEnd?]
      split
      · exact fun c hc => hType c (List.mem_of_mem_take hc)
      · exact hType
    intro hPrefix
    have hSlot := List.forall_mem_append.mpr ⟨hPointee, hBuilder⟩
    have hAccess := eq_access_of_prefix (by simpa [slotFor, Text.concat] using hSlot) hPrefix
    have hLast := congrArg List.getLast? hAccess
    simp [slotFor, Text.concat] at hLast

theorem not_stampHead_assignment (hName : isWord field.name) :
    ¬stampHead <+: (assignment .standard field).text := by
  obtain ⟨rest, hText⟩ : ∃ rest, (assignment .standard field).text =
      'r' :: 'e' :: 't' :: 'n' :: '-' :: '>' ::
        (field.name ++ ' ' :: '=' :: ' ' :: (field.name ++ rest)) := by
    unfold assignment
    split <;> simp [CodeLine.line, Text.concat, Text.ofString]
  rw [hText, stampHead_eq]
  simp only [List.cons_prefix_cons, true_and]
  rintro ⟨more, hMore⟩
  rw [List.append_assoc, List.cons_append] at hMore
  have hKind : ∀ c ∈ Text.ofString "_kind", isWordPart c :=
    List.all_eq_true.mp (by with_unfolding_all decide)
  obtain ⟨hSame, hValue⟩ := word_append_cancel hKind (fun c => isWordPart_of_mem hName)
    (by simp [isWordPart]) (by simp [isWordPart]) hMore
  rw [← hSame] at hValue
  simp [Text.ofString] at hValue

theorem not_stampHead_setter {name : Text} (hName : isWord field.name) :
    ∀ line ∈ setter .standard name field, ¬stampHead <+: line.text := by
  have hAssigned : ¬stampHead <+: (CodeLine.line [field.name, " = builder;"]).text := by
    have hText : (CodeLine.line [field.name, " = builder;"]).text =
        field.name ++ ' ' :: Text.ofString "= builder;" := by
      simp [CodeLine.line, Text.concat, Text.ofString]
    rw [hText]
    exact not_stampHead_of_word hName (by decide) (by decide)
  simp only [setter, List.forall_mem_cons]
  refine ⟨?_, ?_, hAssigned, ?_, ?_, by simp⟩
  all_goals
    refine not_stampHead_of_take ?_
    simp [CodeLine.blank, CodeLine.line, CodeLine.opening, CodeLine.closing, Text.concat,
      Text.ofString]

theorem stamps_stamp (tag : Text) (block : Block) :
    Block.stamps (.line ["retn->_kind = ", "SyntaxKind", "::", tag, ";"] :: block) =
      tag :: block.stamps := by
  have hText : (CodeLine.line ["retn->_kind = ", "SyntaxKind", "::", tag, ";"]).text =
      stampHead ++ (tag ++ [';']) := by
    simp [stampHead, CodeLine.line, Text.concat, Text.ofString]
  refine List.filterMap_cons_some ?_
  rw [CodeLine.stamp?, hText, Text.dropHead?_append]
  simp [Text.dropEnd?]

theorem stamps_build (hNode : node.WellFormed) (tag : Text) :
    (build .standard node tag).stamps = [tag] := by
  have hAllocation : ¬stampHead <+:
      (CodeLine.line [node.name, "* retn = allocator->Allocate<", node.name, ">(1);"]).text := by
    have hText : ∃ rest, (CodeLine.line [node.name, "* retn = allocator->Allocate<", node.name,
        ">(1);"]).text = node.name ++ '*' :: rest := by
      simp [CodeLine.line, Text.concat, Text.ofString]
    obtain ⟨rest, hText⟩ := hText
    rw [hText]
    exact not_stampHead_of_word (isWord_of_isName hNode.name) (by decide) (by decide)
  have hAssignments : Block.stamps (node.fields.map (assignment .standard)) = [] := by
    refine Block.stamps_eq_nil (List.forall_mem_map.mpr fun field hField => ?_)
    exact not_stampHead_assignment (isWord_of_isName (hNode.fields field hField).name)
  have hEnd : Block.stamps [.line ["return retn;"], .closing ["\x7d"]] = [] := by
    refine Block.stamps_eq_nil (List.forall_mem_cons.mpr ⟨?_, List.forall_mem_singleton.mpr ?_⟩)
    all_goals
      refine not_stampHead_of_take ?_
      simp [CodeLine.line, CodeLine.closing, Text.concat, Text.ofString]
  rw [build, Block.stamps_append, Block.stamps_append, hAssignments, hEnd,
    Block.stamps_cons ?_, Block.stamps_cons ?_, Block.stamps_cons hAllocation]
  · exact congrArg (· ++ [] ++ []) (stamps_stamp tag [])
  all_goals
    refine not_stampHead_of_take ?_
    simp [CodeLine.blank, CodeLine.line, CodeLine.opening, Text.concat, Text.ofString]

/-- A builder stamps one tag, the one it is made for. -/
theorem stamps_builderType (hNode : node.WellFormed) (tag : Text) :
    (builderType .standard node tag).stamps = [tag] := by
  have hSlots : Block.stamps (node.fields.map (slotLine .standard)) = [] := by
    refine Block.stamps_eq_nil (List.forall_mem_map.mpr fun field hField => ?_)
    exact not_stampHead_slotLine (hNode.fields field hField).type
  have hSetters : Block.stamps (node.fields.flatMap (setter .standard node.name)) = [] := by
    refine Block.stamps_eq_nil (List.forall_mem_flatMap.mpr fun field hField => ?_)
    exact not_stampHead_setter (isWord_of_isName (hNode.fields field hField).name)
  have hBlank : ¬stampHead <+: CodeLine.blank.text := not_stampHead_of_take (by decide)
  have hGap : Block.stamps (if node.isBare then [] else [.blank]) = [] := by
    split
    · rfl
    · exact Block.stamps_eq_nil (List.forall_mem_singleton.mpr hBlank)
  have hOpening : Block.stamps [.opening ["struct ", node.name, "Builder : ",
      node.base?.getD Conventions.standard.rootType, "Builder \x7b"]] = [] := by
    refine Block.stamps_eq_nil (List.forall_mem_singleton.mpr (not_stampHead_of_take ?_))
    simp [CodeLine.opening, Text.concat, Text.ofString]
  have hEnd : Block.stamps [.blank, .closing ["\x7d;"]] = [] := by
    refine Block.stamps_eq_nil (List.forall_mem_cons.mpr ⟨hBlank, List.forall_mem_singleton.mpr
      (not_stampHead_of_take ?_)⟩)
    simp [CodeLine.closing, Text.concat, Text.ofString]
  simp only [builderType, Block.stamps_append, hOpening, hGap, hSlots, hSetters,
    stamps_build hNode, hEnd, List.nil_append, List.append_nil]

end Code.Construction

end NodeScaffold
