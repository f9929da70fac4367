import NodeScaffold.Proofs.CaseLines
import NodeScaffold.Proofs.Nesting

/-! # Nesting of the generated code

Under the standard conventions, the code for a node whose names are words and whose types and tags
have no braces is neat, and it closes the levels that it opens. With the frames, whose rows are
checked one by one, this makes every document balanced and indented by its nesting. -/
namespace NodeScaffold
open Text
set_option autoImplicit false

/-- Neat code that closes the levels it opens, and only those. -/
structure Block.Neat (block : Block) : Prop where
  lines : ∀ line ∈ block, line.Neat
  depth : ∀ n, block.depthAfter? n = some n

namespace Block.Neat
variable {block block' : Block}

theorem nil : Block.Neat [] := ⟨by simp, fun _ => rfl⟩

theorem append (h : block.Neat) (h' : block'.Neat) : Block.Neat (block ++ block') := by
  refine ⟨List.forall_mem_append.mpr ⟨h.lines, h'.lines⟩, fun n => ?_⟩
  rw [depthAfter?_append, h.depth]
  exact h'.depth n

theorem cons {line : CodeLine} (hLine : line.Neat) (hShift : line.shift = .stay) (h : block.Neat) :
    Block.Neat (line :: block) := by
  refine ⟨List.forall_mem_cons.mpr ⟨hLine, h.lines⟩, fun n => ?_⟩
  simp only [depthAfter?, hShift]
  exact h.depth n

theorem flatMap {α : Type} {items : List α} {f : α → Block} (h : ∀ a ∈ items, (f a).Neat) :
    Block.Neat (items.flatMap f) := by
  induction items with
  | nil => exact nil
  | cons a items ih =>
    obtain ⟨ha, hItems⟩ := List.forall_mem_cons.mp h
    exact append ha (ih hItems)

theorem map {α : Type} {items : List α} {f : α → CodeLine}
    (h : ∀ a ∈ items, (f a).Neat ∧ (f a).shift = .stay) : Block.Neat (items.map f) := by
  rw [List.map_eq_flatMap]
  exact flatMap fun a ha => cons (h a ha).1 (h a ha).2 nil

/-- Code between a line that opens a level and one that closes it. -/
theorem within {pieces pieces' : List Text} (hOpening : (CodeLine.opening pieces).Neat)
    (h : block.Neat) (hClosing : (CodeLine.closing pieces').Neat) :
    Block.Neat (CodeLine.opening pieces :: (block ++ [CodeLine.closing pieces'])) := by
  constructor
  · exact List.forall_mem_cons.mpr ⟨hOpening,
      List.forall_mem_append.mpr ⟨h.lines, List.forall_mem_singleton.mpr hClosing⟩⟩
  · intro n
    have hBody : depthAfter? (n + 1) (block ++ [CodeLine.closing pieces']) = some n := by
      rw [depthAfter?_append, h.depth]
      rfl
    exact hBody

end Block.Neat

theorem CodeLine.neat_brace : (closing ["\x7d"]).Neat :=
  neat_closing (t := []) (by simp [Text.concat, Text.ofString]) fun _ => rfl

namespace Text

def Solid (t : Text) : Prop := ∀ c ∈ t, isBlank c = false ∧ c ≠ '{' ∧ c ≠ '}'

theorem Solid.isClosed {t : Text} (h : t.Solid) : t.IsClosed :=
  isClosed_of_notMem (fun hMem => (h _ hMem).2.1 rfl) fun hMem => (h _ hMem).2.2 rfl

theorem Solid.head? {t : Text} (h : t.Solid) (hNonempty : t ≠ []) :
    ∃ c, t.head? = some c ∧ isBlank c = false ∧ c ≠ '}' := by
  obtain ⟨c, rest, rfl⟩ := List.exists_cons_of_ne_nil hNonempty
  have hc := h c List.mem_cons_self
  exact ⟨c, rfl, hc.1, hc.2.2⟩

theorem solid_append {t u : Text} (ht : t.Solid) (hu : u.Solid) : Solid (t ++ u) :=
  List.forall_mem_append.mpr ⟨ht, hu⟩

theorem solid_ofString {t : Text}
    (h : t.all fun c => !isBlank c && c ≠ '{' && c ≠ '}') : (ofString (String.ofList t)).Solid := by
  rw [ofString, String.toList_ofList]
  intro c hc
  have hChar := List.all_eq_true.mp h c hc
  simpa [and_assoc] using hChar

theorem ne_nil_of_isWord {t : Text} (h : isWord t) : t ≠ [] := by
  rintro rfl
  cases h

theorem solid_of_isWord {t : Text} (h : isWord t) : t.Solid := by
  intro c hc
  have hPart := isWordPart_of_mem h hc
  refine ⟨isBlank_of_isWordPart hPart, ?_, ?_⟩
  all_goals
    rintro rfl
    simp [isWordPart] at hPart

/-- The capital form of a letter or digit is one as well, or the character itself. -/
theorem isWordPart_of_mem_capital {c d : Char} (hc : isWordPart c) (hd : d ∈ capital c) :
    isWordPart d := by
  have hBasic : ∀ n : Fin 128, isWordPart (Char.ofNat n) →
      isWordPart (Char.ofNat n).toUpper := by decide
  have hSmall : c.toNat < 128 := by
    simp only [isWordPart, Char.isAlphanum, Char.isDigit] at hc
    delta Char.isAlpha Char.isUpper Char.isLower at hc
    simp only [Bool.or_eq_true, Bool.and_eq_true, decide_eq_true_eq, UInt32.le_iff_toNat_le] at hc
    rcases hc with ((⟨-, hc⟩ | ⟨-, hc⟩) | ⟨-, hc⟩) | rfl
    · exact Nat.lt_of_le_of_lt hc (by decide)
    · exact Nat.lt_of_le_of_lt hc (by decide)
    · exact Nat.lt_of_le_of_lt hc (by decide)
    · decide
  rw [capital, if_pos hSmall, List.mem_singleton] at hd
  have hUpper := hBasic ⟨c.toNat, hSmall⟩
  rw [Char.ofNat_toNat] at hUpper
  rw [hd]
  exact hUpper hc

theorem isClosed_capitalize {t : Text} (h : isWord t) : t.capitalize.IsClosed := by
  cases t with
  | nil => exact fun _ => rfl
  | cons c rest =>
    have hParts : ∀ d ∈ capitalize (c :: rest), isWordPart d := by
      intro d hd
      rcases List.mem_append.mp hd with hd | hd
      · exact isWordPart_of_mem_capital (isWordPart_of_mem h List.mem_cons_self) hd
      · exact isWordPart_of_mem h (List.mem_cons_of_mem c hd)
    apply isClosed_of_notMem
    all_goals
      intro hMem
      simpa [isWordPart] using hParts _ hMem

end Text

namespace Code
variable {node : NodeDecl} {field : FieldDecl} {tag : Text}

theorem isClosed_access {object : Text} (hObject : object.IsClosed) (hName : isWord field.name) :
    (access .standard object field).IsClosed := by
  have hField := isClosed_of_isWord hName
  have hPlain : (Text.concat [object, "->", field.name]).IsClosed :=
    isClosed_concat (by simp [hObject, hField])
  unfold access
  split
  · exact isClosed_concat (by simp [hPlain, Conventions.untypedView, Conventions.standard,
      isClosed_append])
  · exact isClosed_concat (by simp [hPlain, Conventions.untypedView, Conventions.standard,
      isClosed_append])
  all_goals exact hPlain

theorem neat_caseOpening (hTag : tag.IsClosed) : (caseOpening .standard tag).Neat :=
  CodeLine.neat_opening (c := 'c') (t := [':', ' ']) (by simp) (by decide)
    (by simp [hTag, Conventions.standard]) (by simp [Text.ofString])
    (isClosed_of_notMem (by decide) (by decide))

theorem neat_castLine {type name value : Text} (hType : isWord type) (hName : name.IsClosed)
    (hValue : value.IsClosed) : (castLine type name value).Neat := by
  have hClosed := isClosed_of_isWord hType
  obtain ⟨c, hHead, hc⟩ := (solid_of_isWord hType).head? (ne_nil_of_isWord hType)
  exact CodeLine.neat_line (c := c) (by simpa using hHead) hc (by simp [hClosed, hName, hValue])

theorem neat_castLineIf (hName : isWord node.name) :
    Block.Neat (if node.isBare then [] else [castLine node.name "p" "syntaxBase"]) := by
  split
  · exact .nil
  · exact .cons (neat_castLine hName (by simp) (by simp)) rfl .nil

theorem Comparison.neat_caseBlock (hName : isWord node.name)
    (hFields : ∀ field ∈ node.fields, isWord field.name) (hTag : tag.IsClosed) :
    Block.Neat (caseBlock .standard node tag) := by
  have hShape : caseBlock .standard node tag = caseOpening .standard tag ::
      ([castLine node.name "pA" "a", castLine node.name "pB" "b"] ++
        (node.fields.map (compare .standard) ++ [.line ["return true;"]]) ++ [caseClosing]) := by
    simp [caseBlock]
  rw [hShape]
  refine .within (neat_caseOpening hTag) (.append ?_ (.append (.map ?_) ?_)) CodeLine.neat_brace
  · exact .cons (neat_castLine hName (by simp) (by simp)) rfl
      (.cons (neat_castLine hName (by simp) (by simp)) rfl .nil)
  · intro field hField
    have hAccess {object : Text} (hObject : object.IsClosed) :=
      isClosed_access hObject (hFields field hField)
    have hFunction : (function (field.kind .standard)).IsClosed := by
      cases field.kind .standard <;> simp [function]
    exact ⟨CodeLine.neat_line (c := 'i') (by simp) (by decide) (by simp [hAccess, hFunction]), rfl⟩
  · exact .cons (CodeLine.neat_line (c := 'r') (by simp) (by decide) (by simp)) rfl .nil

theorem Printing.neat_caseBlock (hName : isWord node.name)
    (hFields : ∀ field ∈ node.fields, isWord field.name) (hTag : tag.IsClosed) :
    Block.Neat (caseBlock .standard node tag) := by
  have hShape : caseBlock .standard node tag = caseOpening .standard tag ::
      ((if node.isBare then [] else [castLine node.name "p" "syntaxBase"]) ++
        ([.line ["PrintNodeHeader(\"", node.name, "\", syntaxBase);"], .line ["indent++;"]] ++
          (node.fields.flatMap (print .standard) ++
            [.line ["indent--;"], .line ["break;"]])) ++ [caseClosing]) := by
    simp [caseBlock]
  have hClosed := isClosed_of_isWord hName
  rw [hShape]
  refine .within (neat_caseOpening hTag)
    (.append (neat_castLineIf hName) (.append ?_ (.append (.flatMap ?_) ?_))) CodeLine.neat_brace
  · exact .cons (CodeLine.neat_line (c := 'P') (by simp) (by decide) (by simp [hClosed])) rfl
      (.cons (CodeLine.neat_line (c := 'i') (by simp) (by decide) (by simp)) rfl .nil)
  · intro field hField
    have hField := hFields field hField
    have hPlain := isClosed_of_isWord hField
    have hAccess {object : Text} (hObject : object.IsClosed) := isClosed_access hObject hField
    have hFunction : (function (field.kind .standard)).IsClosed := by
      cases field.kind .standard <;> simp [function]
    have hHead : (function (field.kind .standard)).head? = some 'P' := by
      cases field.kind .standard <;> simp [function]
    exact .cons (CodeLine.neat_line (c := 'P') (by simp) (by decide) (by simp [hPlain])) rfl
      (.cons (CodeLine.neat_line (c := 'P') (by simpa using hHead) (by decide)
        (by simp [hAccess, hFunction])) rfl .nil)
  · exact .cons (CodeLine.neat_line (c := 'i') (by simp) (by decide) (by simp)) rfl
      (.cons (CodeLine.neat_line (c := 'b') (by simp) (by decide) (by simp)) rfl .nil)

theorem Touching.neat_caseBlock (hName : isWord node.name)
    (hFields : ∀ field ∈ node.fields, isWord field.name) (hTag : tag.IsClosed) :
    Block.Neat (caseBlock .standard node tag) := by
  have hShape : caseBlock .standard node tag = caseOpening .standard tag ::
      ([castLine node.name "p" "syntaxBase"] ++
        (node.fields.map (touch .standard) ++ [.line ["break;"]]) ++ [caseClosing]) := by
    simp [caseBlock]
  rw [hShape]
  refine .within (neat_caseOpening hTag) (.append ?_ (.append (.map ?_) ?_)) CodeLine.neat_brace
  · exact .cons (neat_castLine hName (by simp) (by simp)) rfl .nil
  · intro field hField
    have hAccess {object : Text} (hObject : object.IsClosed) :=
      isClosed_access hObject (hFields field hField)
    have hFunction : (function (field.kind .standard)).IsClosed := by
      cases field.kind .standard <;> simp [function]
    have hHead : (function (field.kind .standard)).head? = some 'T' := by
      cases field.kind .standard <;> simp [function]
    exact ⟨CodeLine.neat_line (c := 'T') (by simpa using hHead) (by decide)
      (by simp [hAccess, hFunction]), rfl⟩
  · exact .cons (CodeLine.neat_line (c := 'b') (by simp) (by decide) (by simp)) rfl .nil

namespace TokenSearch
variable {name : Text}

theorem isClosed_exprRender (hName : name.IsClosed) (e : Expr) :
    (e.render .standard name).IsClosed := by
  have hRoot : Conventions.standard.rootType.IsClosed := by simp [Conventions.standard]
  induction e with
  | field => exact isClosed_concat (by simp [hName])
  | zero => simp [Expr.render]
  | absentToken => exact isClosed_concat (by simp [Conventions.standard])
  | member list m ih =>
    have hMember : m.name.IsClosed := by cases m <;> simp [Member.name]
    exact isClosed_concat (by simp [ih, hMember])
  | element array index ihArray ihIndex => exact isClosed_concat (by simp [ihArray, ihIndex])
  | lessOne count ih => exact isClosed_concat (by simp [ih])
  | search edge node ih =>
    have hFunction : edge.function.IsClosed := by cases edge <;> simp [Edge.function]
    exact isClosed_concat (by simp [ih, hFunction])
  | asRoot node ih => exact isClosed_concat (by simp [ih, hRoot])
  | read v => cases v <;> simp [Expr.render, Variable.name]

theorem isClosed_conditionRender (hName : name.IsClosed) (condition : Condition) :
    (condition.render .standard name).IsClosed := by
  have hExpr := isClosed_exprRender hName
  induction condition with
  | isPresent | notNull | isZero | notZero | comesLater => exact isClosed_concat (by simp [hExpr])
  | both left right ihLeft ihRight => exact isClosed_concat (by simp [ihLeft, ihRight])

theorem neat_statement (hName : name.IsClosed) (statement : Statement) :
    (statement.line .standard name).Neat ∧ (statement.line .standard name).shift = .stay := by
  have hExpr := isClosed_exprRender hName
  have hCondition := isClosed_conditionRender hName
  have hToken : Conventions.standard.tokenType.IsClosed := by simp [Conventions.standard]
  have hVariable (v : Variable) : v.name.IsClosed := by cases v <;> simp [Variable.name]
  cases statement with
  | returnIf =>
    exact ⟨CodeLine.neat_line (c := 'i') (by simp) (by decide) (by simp [hExpr, hCondition]), rfl⟩
  | declare | declareChoice =>
    exact ⟨CodeLine.neat_line (c := 'S') (by simp [Conventions.standard]) (by decide)
      (by simp [hExpr, hCondition, hVariable, hToken]), rfl⟩

theorem neat_checkBlock (hName : name.IsClosed) (check : Check) :
    Block.Neat (check.block .standard name) := by
  cases check with
  | single statement =>
    obtain ⟨hNeat, hShift⟩ := neat_statement hName statement
    exact .cons hNeat hShift .nil
  | guarded condition statements =>
    have hCondition := isClosed_conditionRender hName condition
    refine .within ?_ (.map fun statement _ => neat_statement hName statement) CodeLine.neat_brace
    exact CodeLine.neat_opening (c := 'i') (t := [')', ' ']) (by simp) (by decide)
      (by simp [hCondition]) (by simp [Text.ofString]) (isClosed_of_notMem (by decide) (by decide))

theorem neat_caseBlock (edge : Edge) (hName : isWord node.name)
    (hFields : ∀ field ∈ node.fields, isWord field.name) (hTag : tag.IsClosed) :
    Block.Neat (caseBlock .standard edge node tag) := by
  have hShape : caseBlock .standard edge node tag = caseOpening .standard tag ::
      ((if node.isBare then [] else [castLine node.name "p" "syntaxBase"]) ++
        ((edge.order node.fields).flatMap
          (fun field => (Check.of edge (field.kind .standard)).block .standard field.name) ++
          [.line ["return ", Expr.absentToken.render .standard [], ";"]]) ++ [caseClosing]) := by
    simp [caseBlock]
  have hAbsent : (Expr.absentToken.render .standard []).IsClosed :=
    isClosed_exprRender (fun _ => rfl) _
  rw [hShape]
  refine .within (neat_caseOpening hTag)
    (.append (neat_castLineIf hName) (.append (.flatMap fun field hField => ?_) ?_))
    CodeLine.neat_brace
  · exact neat_checkBlock (isClosed_of_isWord (hFields field (mem_order.mp hField))) _
  · exact .cons (CodeLine.neat_line (c := 'r') (by simp) (by decide) (by simp [hAbsent])) rfl .nil

end TokenSearch

namespace Construction

/-- The type of a slot is never empty: what a node pointer leaves of its type gets an ending. -/
theorem solid_slotOf (h : field.type.Solid) :
    (slotOf .standard field).Solid ∧ slotOf .standard field ≠ [] := by
  have hBuilder : (Text.ofString "Builder*").Solid := solid_ofString (by decide)
  have hPointee : Text.Solid ((field.type.dropEnd? ['*']).getD field.type) := by
    rw [Text.dropEnd?]
    split
    · exact fun c hc => h c (List.mem_of_mem_take hc)
    · exact h
  rw [slotOf]
  cases hKind : field.kind .standard with
  | token => exact ⟨solid_ofString (by decide), by simp [slotFor, Conventions.standard, ofString]⟩
  | tokenList =>
    refine ⟨h, fun hNil => ?_⟩
    rw [slotFor] at hNil
    rw [FieldDecl.kind, hNil] at hKind
    exact absurd hKind (by with_unfolding_all decide)
  | nodeList =>
    refine ⟨?_, by simp [slotFor, Text.concat, ofString]⟩
    exact solid_append (solid_ofString (by decide)) (solid_append hBuilder (by simp [Solid]))
  | separatedList =>
    refine ⟨?_, by simp [slotFor, Text.concat, ofString]⟩
    exact solid_append (solid_ofString (by decide)) (solid_append hBuilder (by simp [Solid]))
  | node =>
    refine ⟨?_, by simp [slotFor, Text.concat, ofString]⟩
    exact solid_append hPointee (solid_append hBuilder (by simp [Solid]))

theorem neat_slotLine (hName : isWord field.name) (hType : field.type.Solid) :
    (slotLine .standard field).Neat := by
  obtain ⟨hSlot, hNonempty⟩ := solid_slotOf hType
  obtain ⟨c, hHead, hc⟩ := hSlot.head? hNonempty
  have hBraces : (Text.ofString " \x7b\x7d;").IsClosed := by
    intro n
    rw [ofString]
    rfl
  exact CodeLine.neat_line (c := c) (by simpa using hHead) hc
    (by simp [hSlot.isClosed, isClosed_of_isWord hName, hBraces])

theorem neat_setter {name : Text} (hNode : isWord name) (hName : isWord field.name)
    (hType : field.type.Solid) : Block.Neat (setter .standard name field) := by
  have hSlot := (solid_slotOf hType).1.isClosed
  have hSetter : (setterFor field.name).IsClosed := isClosed_capitalize hName
  obtain ⟨c, hHead, hc⟩ := (solid_of_isWord hName).head? (ne_nil_of_isWord hName)
  refine .cons CodeLine.neat_blank rfl (.within ?_ (.cons ?_ rfl (.cons ?_ rfl .nil))
    CodeLine.neat_brace)
  · exact CodeLine.neat_opening (c := 'i') (t := Text.ofString " builder) ") (by simp) (by decide)
      (by simp [isClosed_of_isWord hNode, hSetter, hSlot]) (by simp [ofString]) (by simp)
  · exact CodeLine.neat_line (c := c) (by simpa using hHead) hc (by simp [isClosed_of_isWord hName])
  · exact CodeLine.neat_line (c := 'r') (by simp) (by decide) (by simp)

theorem neat_assignment (hName : isWord field.name) (hType : field.type.Solid) :
    (assignment .standard field).Neat ∧ (assignment .standard field).shift = .stay := by
  have hPlain := isClosed_of_isWord hName
  unfold assignment
  split
  all_goals
    exact ⟨CodeLine.neat_line (c := 'r') (by simp) (by decide)
      (by simp [hPlain, hType.isClosed]), rfl⟩

theorem neat_build (hName : isWord node.name) (hFields : ∀ field ∈ node.fields, isWord field.name)
    (hTypes : ∀ field ∈ node.fields, field.type.Solid) (hTag : tag.IsClosed) :
    Block.Neat (build .standard node tag) := by
  have hShape : build .standard node tag = CodeLine.blank ::
      (.opening ["inline ", Conventions.standard.rootType, "* Build() override \x7b"] ::
        ([.line [node.name, "* retn = allocator->Allocate<", node.name, ">(1);"],
          .line ["retn->_kind = ", Conventions.standard.tagEnum, "::", tag, ";"]] ++
          (node.fields.map (assignment .standard) ++ [.line ["return retn;"]]) ++
          [.closing ["\x7d"]])) := by
    simp [build]
  have hPlain := isClosed_of_isWord hName
  obtain ⟨c, hHead, hc⟩ := (solid_of_isWord hName).head? (ne_nil_of_isWord hName)
  rw [hShape]
  refine .cons CodeLine.neat_blank rfl (.within ?_ (.append (.cons ?_ rfl (.cons ?_ rfl .nil))
    (.append (.map fun field hField => ?_) (.cons ?_ rfl .nil))) CodeLine.neat_brace)
  · exact CodeLine.neat_opening (c := 'i') (t := Text.ofString "* Build() override ") (by simp)
      (by decide) (by simp [Conventions.standard]) (by simp [ofString]) (by simp)
  · exact CodeLine.neat_line (c := c) (by simpa using hHead) hc (by simp [hPlain])
  · exact CodeLine.neat_line (c := 'r') (by simp) (by decide)
      (by simp [hTag, Conventions.standard])
  · exact neat_assignment (hFields field hField) (hTypes field hField)
  · exact CodeLine.neat_line (c := 'r') (by simp) (by decide) (by simp)

theorem neat_builderType (hName : isWord node.name) (hBase : ∀ base ∈ node.base?, isWord base)
    (hFields : ∀ field ∈ node.fields, isWord field.name)
    (hTypes : ∀ field ∈ node.fields, field.type.Solid) (hTag : tag.IsClosed) :
    Block.Neat (builderType .standard node tag) := by
  have hShape : builderType .standard node tag =
      .opening ["struct ", node.name, "Builder : ",
        node.base?.getD Conventions.standard.rootType, "Builder \x7b"] ::
      ((if node.isBare then [] else [.blank]) ++
        (node.fields.map (slotLine .standard) ++
          (node.fields.flatMap (setter .standard node.name) ++
            (build .standard node tag ++ [.blank]))) ++ [.closing ["\x7d;"]]) := by
    simp [builderType]
  have hParent : (node.base?.getD Conventions.standard.rootType).IsClosed := by
    cases hBase? : node.base? with
    | none => simp [Conventions.standard]
    | some base => exact isClosed_of_isWord (hBase base hBase?)
  rw [hShape]
  refine .within ?_ (.append ?_ (.append (.map fun field hField => ⟨?_, rfl⟩)
    (.append (.flatMap fun field hField => ?_) (.append ?_ ?_)))) ?_
  · exact CodeLine.neat_opening (c := 's') (t := Text.ofString "Builder ") (by simp) (by decide)
      (by simp [isClosed_of_isWord hName, hParent]) (by simp [ofString]) (by simp)
  · split
    · exact .nil
    · exact .cons CodeLine.neat_blank rfl .nil
  · exact neat_slotLine (hFields field hField) (hTypes field hField)
  · exact neat_setter hName (hFields field hField) (hTypes field hField)
  · exact neat_build hName hFields hTypes hTag
  · exact .cons CodeLine.neat_blank rfl .nil
  · exact CodeLine.neat_closing (t := [';']) (by simp [Text.concat, ofString])
      (isClosed_of_notMem (by decide) (by decide))

theorem neat_factoryMethod {name : Text} (hName : isWord name) :
    Block.Neat (factoryMethod name) := by
  have hPlain := isClosed_of_isWord hName
  obtain ⟨c, hHead, hc⟩ := (solid_of_isWord hName).head? (ne_nil_of_isWord hName)
  have hShape : factoryMethod name = .opening ["inline ", name, "Builder* ", name, "() \x7b"] ::
      ([.line [name, "Builder* retn = allocator->Allocate<", name, "Builder>(1);"],
        .line ["new (retn) ", name, "Builder();"], .line ["retn->allocator = allocator;"],
        .line ["return retn;"]] ++ [.closing ["\x7d"]]) := rfl
  rw [hShape]
  refine .within ?_ (.cons ?_ rfl (.cons ?_ rfl (.cons ?_ rfl (.cons ?_ rfl .nil))))
    CodeLine.neat_brace
  · exact CodeLine.neat_opening (c := 'i') (t := Text.ofString "() ") (by simp) (by decide)
      (by simp [hPlain]) (by simp [ofString]) (by simp)
  · exact CodeLine.neat_line (c := c) (by simpa using hHead) hc (by simp [hPlain])
  · exact CodeLine.neat_line (c := 'n') (by simp) (by decide) (by simp [hPlain])
  · exact CodeLine.neat_line (c := 'r') (by simp) (by decide) (by simp)
  · exact CodeLine.neat_line (c := 'r') (by simp) (by decide) (by simp)

end Construction

end Code

end NodeScaffold
