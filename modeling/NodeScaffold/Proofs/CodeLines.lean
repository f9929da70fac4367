import NodeScaffold.Document.Fragments
import NodeScaffold.Proofs.Texts

/-! # Lines of code

What is written for a node without line breaks has none inside of its lines either, and no line of
it ends as the marks of a frame do. -/
namespace NodeScaffold
set_option autoImplicit false

structure Conventions.OneLine (conv : Conventions) : Prop where
  tagEnum : '\n' ∉ conv.tagEnum
  tokenType : '\n' ∉ conv.tokenType
  nodeListMark : '\n' ∉ conv.nodeListMark
  separatedListMark : '\n' ∉ conv.separatedListMark
  rootType : '\n' ∉ conv.rootType

structure FieldDecl.OneLine (field : FieldDecl) : Prop where
  name : '\n' ∉ field.name
  type : '\n' ∉ field.type

structure NodeDecl.OneLine (node : NodeDecl) : Prop where
  name : '\n' ∉ node.name
  base : ∀ base ∈ node.base?, '\n' ∉ base
  fields : ∀ field ∈ node.fields, field.OneLine
  tags : ∀ tag ∈ node.tags, '\n' ∉ tag

/-- A text without line breaks that does not end as a mark does. -/
structure Unmarked (t : Text) : Prop where
  oneLine : '\n' ∉ t
  ending : t.getLast? ≠ some '_'

theorem unmarked_nil : Unmarked [] := ⟨by simp, by simp⟩

theorem unmarked_concat {pieces : List Text} {c : Char} (hPieces : ∀ piece ∈ pieces, '\n' ∉ piece)
    (hEnding : pieces.getLast?.bind List.getLast? = some c) (hc : c ≠ '_') :
    Unmarked (Text.concat pieces) := by
  refine ⟨fun hMem => ?_, ?_⟩
  · obtain ⟨piece, hPiece, hBreak⟩ := List.mem_flatten.mp hMem
    exact hPieces piece hPiece hBreak
  · obtain ⟨ending, hLast, hChar⟩ := Option.bind_eq_some_iff.mp hEnding
    obtain ⟨before, rfl⟩ := List.getLast?_eq_some_iff.mp hLast
    rw [Text.concat, List.flatten_concat, List.getLast?_append, hChar]
    simpa using hc

def Block.Unmarked (block : Block) : Prop := ∀ line ∈ block, NodeScaffold.Unmarked line.text

namespace Block.Unmarked

theorem nil : Block.Unmarked [] := by simp [Block.Unmarked]

theorem cons {line : CodeLine} {block : Block} (hLine : NodeScaffold.Unmarked line.text)
    (hBlock : block.Unmarked) : Block.Unmarked (line :: block) :=
  List.forall_mem_cons.mpr ⟨hLine, hBlock⟩

theorem append {block block' : Block} (h : block.Unmarked) (h' : block'.Unmarked) :
    Block.Unmarked (block ++ block') :=
  List.forall_mem_append.mpr ⟨h, h'⟩

theorem flatMap {α : Type} {items : List α} {f : α → Block} (h : ∀ a ∈ items, (f a).Unmarked) :
    Block.Unmarked (items.flatMap f) := by
  intro line hLine
  obtain ⟨a, ha, hMem⟩ := List.mem_flatMap.mp hLine
  exact h a ha line hMem

theorem map {α : Type} {items : List α} {f : α → CodeLine}
    (h : ∀ a ∈ items, NodeScaffold.Unmarked (f a).text) : Block.Unmarked (items.map f) :=
  List.forall_mem_map.mpr h

end Block.Unmarked

namespace Text

@[simp] theorem mem_ofString {c : Char} {s : String} : c ∈ ofString s ↔ c ∈ s.toList := by
  rw [ofString]

@[simp] theorem getLast?_ofString (s : String) : (ofString s).getLast? = s.toList.getLast? := by
  rw [ofString]

theorem ofNat_ne_newline {n : Nat} (h : n ≠ 10) : Char.ofNat n ≠ '\n' := by
  intro hEq
  by_cases hValid : n.isValidChar
  · have hChar : Char.ofNat n = Char.ofNatAux n hValid := dif_pos hValid
    have hVal : n = 10 :=
      congrArg (fun c : Char => c.val.toBitVec.toNat) (hChar.symm.trans hEq)
    exact h hVal
  · have hChar : Char.ofNat n = Char.ofNat 0 := dif_neg hValid
    exact absurd (hChar.symm.trans hEq) (by decide)

/-- No character but the line break itself has a line break in its capital form. -/
theorem newline_notMem_capital {c : Char} (h : c ≠ '\n') : '\n' ∉ capital c := by
  have hBasic : ∀ n : Fin 128, n.val ≠ 10 → (Char.ofNat n).toUpper ≠ '\n' := by decide
  have hWide : wideCapitals.all fun entry => entry.2.all (· ≠ 10) := by decide
  have hRuns : caseRuns.all fun run => 10 < run.first + run.offset := by decide
  have hNat : c.toNat ≠ 10 := fun hNat => h (by rw [← Char.ofNat_toNat c, hNat])
  unfold capital
  split
  · next hSmall =>
    have hUpper := hBasic ⟨c.toNat, hSmall⟩ hNat
    rw [Char.ofNat_toNat] at hUpper
    simpa using hUpper.symm
  · split
    · next letters hLookup =>
      intro hMem
      obtain ⟨n, hn, hEq⟩ := List.mem_map.mp hMem
      obtain ⟨before, after, hTable, -⟩ := List.lookup_eq_some_iff.mp hLookup
      have hEntry := List.all_eq_true.mp hWide (c.toNat, letters) (by simp [hTable])
      exact ofNat_ne_newline (by simpa using List.all_eq_true.mp hEntry n hn) hEq
    · split
      · next run hFind =>
        have hRun := List.all_eq_true.mp hRuns run (List.mem_of_find?_eq_some hFind)
        have hCovers := List.find?_some hFind
        simp only [CaseRun.covers, Bool.and_eq_true, decide_eq_true_eq] at hCovers hRun
        have hFar := ofNat_ne_newline (n := (c.toNat + run.offset).toNat) (by omega)
        simpa using hFar.symm
      · simpa using h.symm

theorem newline_notMem_capitalize {t : Text} (h : '\n' ∉ t) : '\n' ∉ capitalize t := by
  cases t with
  | nil => exact h
  | cons c rest =>
    obtain ⟨hc, hRest⟩ := not_or.mp (mt List.mem_cons.mpr h)
    rw [capitalize, List.mem_append]
    exact not_or.mpr ⟨newline_notMem_capital (Ne.symm hc), hRest⟩

end Text

namespace Code

variable {conv : Conventions} {node : NodeDecl} {field : FieldDecl} {tag : Text}

theorem newline_notMem_access (hConv : conv.OneLine) (hField : field.OneLine) {object : Text}
    (hObject : '\n' ∉ object) : '\n' ∉ access conv object field := by
  have hName := hField.name
  have hNodes := hConv.nodeListMark
  have hSeparated := hConv.separatedListMark
  unfold access
  split <;> simp [Text.concat, Conventions.untypedView, *]

theorem unmarked_caseOpening (hConv : conv.OneLine) (hTag : '\n' ∉ tag) :
    Unmarked (caseOpening conv tag).text := by
  have hEnum := hConv.tagEnum
  exact unmarked_concat (c := '{') (by simp [hEnum, hTag]) (by simp) (by decide)

theorem unmarked_castLine {type name value : Text} (hType : '\n' ∉ type) (hName : '\n' ∉ name)
    (hValue : '\n' ∉ value) : Unmarked (castLine type name value).text :=
  unmarked_concat (c := ';') (by simp [hType, hName, hValue]) (by simp) (by decide)

theorem unmarked_caseClosing : Unmarked caseClosing.text :=
  unmarked_concat (c := '}') (by simp) (by simp) (by decide)

namespace Comparison

theorem unmarked_compare (hConv : conv.OneLine) (hField : field.OneLine) :
    Unmarked (compare conv field).text := by
  have hLeft : '\n' ∉ access conv "pA" field := newline_notMem_access hConv hField (by simp)
  have hRight : '\n' ∉ access conv "pB" field := newline_notMem_access hConv hField (by simp)
  have hFunction : '\n' ∉ function (field.kind conv) := by
    cases field.kind conv <;> simp [function]
  exact unmarked_concat (c := ';') (by simp [hFunction, hLeft, hRight]) (by simp) (by decide)

theorem unmarked_caseBlock (hConv : conv.OneLine) (hNode : node.OneLine) (hTag : '\n' ∉ tag) :
    Block.Unmarked (caseBlock conv node tag) := by
  refine .append (.append (.cons (unmarked_caseOpening hConv hTag)
    (.cons (unmarked_castLine hNode.name (by simp) (by simp))
      (.cons (unmarked_castLine hNode.name (by simp) (by simp)) .nil))) ?_) ?_
  · exact .map fun field hField => unmarked_compare hConv (hNode.fields field hField)
  · exact .cons (unmarked_concat (c := ';') (by simp) (by simp) (by decide))
      (.cons unmarked_caseClosing .nil)

end Comparison

namespace Printing

theorem unmarked_print (hConv : conv.OneLine) (hField : field.OneLine) :
    Block.Unmarked (print conv field) := by
  have hName := hField.name
  have hAccess : '\n' ∉ access conv "p" field := newline_notMem_access hConv hField (by simp)
  have hFunction : '\n' ∉ function (field.kind conv) := by
    cases field.kind conv <;> simp [function]
  refine .cons ?_ (.cons ?_ .nil)
  · exact unmarked_concat (c := ';') (by simp [hName]) (by simp) (by decide)
  · exact unmarked_concat (c := ';') (by simp [hFunction, hAccess]) (by simp) (by decide)

theorem unmarked_caseBlock (hConv : conv.OneLine) (hNode : node.OneLine) (hTag : '\n' ∉ tag) :
    Block.Unmarked (caseBlock conv node tag) := by
  have hName := hNode.name
  refine .append (.append (.append (.append (.cons (unmarked_caseOpening hConv hTag) .nil) ?_)
    (.cons ?_ (.cons ?_ .nil))) (.flatMap fun field hField =>
      unmarked_print hConv (hNode.fields field hField)))
    (.cons ?_ (.cons ?_ (.cons unmarked_caseClosing .nil)))
  · split
    · exact .nil
    · exact .cons (unmarked_castLine hName (by simp) (by simp)) .nil
  · exact unmarked_concat (c := ';') (by simp [hName]) (by simp) (by decide)
  all_goals exact unmarked_concat (c := ';') (by simp) (by simp) (by decide)

end Printing

namespace Touching

theorem unmarked_touch (hConv : conv.OneLine) (hField : field.OneLine) :
    Unmarked (touch conv field).text := by
  have hAccess : '\n' ∉ access conv "p" field := newline_notMem_access hConv hField (by simp)
  have hFunction : '\n' ∉ function (field.kind conv) := by
    cases field.kind conv <;> simp [function]
  exact unmarked_concat (c := ';') (by simp [hFunction, hAccess]) (by simp) (by decide)

theorem unmarked_caseBlock (hConv : conv.OneLine) (hNode : node.OneLine) (hTag : '\n' ∉ tag) :
    Block.Unmarked (caseBlock conv node tag) := by
  refine .append (.append (.cons (unmarked_caseOpening hConv hTag)
    (.cons (unmarked_castLine hNode.name (by simp) (by simp)) .nil)) (.map fun field hField =>
      unmarked_touch hConv (hNode.fields field hField)))
    (.cons ?_ (.cons unmarked_caseClosing .nil))
  exact unmarked_concat (c := ';') (by simp) (by simp) (by decide)

end Touching

namespace TokenSearch

variable {name : Text}

theorem newline_notMem_exprRender (hConv : conv.OneLine) (hName : '\n' ∉ name) (e : Expr) :
    '\n' ∉ e.render conv name := by
  have hRoot := hConv.rootType
  have hToken := hConv.tokenType
  induction e with
  | field | zero | absentToken => simp [Expr.render, Text.concat, *]
  | member list m ih => cases m <;> simp [Expr.render, Text.concat, Member.name, ih]
  | element array index ihArray ihIndex => simp [Expr.render, Text.concat, ihArray, ihIndex]
  | lessOne count ih => simp [Expr.render, Text.concat, ih]
  | search edge node ih => cases edge <;> simp [Expr.render, Text.concat, Edge.function, ih]
  | asRoot node ih => simp [Expr.render, Text.concat, hRoot, ih]
  | read v => cases v <;> simp [Expr.render, Variable.name]

theorem newline_notMem_conditionRender (hConv : conv.OneLine) (hName : '\n' ∉ name)
    (condition : Condition) : '\n' ∉ condition.render conv name := by
  have hExpr := newline_notMem_exprRender hConv hName
  induction condition with
  | isPresent | notNull | isZero | notZero | comesLater =>
    simp [Condition.render, Text.concat, hExpr]
  | both left right ihLeft ihRight => simp [Condition.render, Text.concat, ihLeft, ihRight]

theorem unmarked_statement (hConv : conv.OneLine) (hName : '\n' ∉ name) (statement : Statement) :
    Unmarked (statement.line conv name).text := by
  have hExpr := newline_notMem_exprRender hConv hName
  have hCondition := newline_notMem_conditionRender hConv hName
  have hToken := hConv.tokenType
  have hVariable (v : Variable) : '\n' ∉ v.name := by cases v <;> simp [Variable.name]
  cases statement with
  | returnIf | declare | declareChoice =>
    exact unmarked_concat (c := ';') (by simp [hExpr, hCondition, hToken, hVariable]) (by simp)
      (by decide)

theorem unmarked_checkBlock (hConv : conv.OneLine) (hName : '\n' ∉ name) (check : Check) :
    Block.Unmarked (check.block conv name) := by
  cases check with
  | single statement => exact .cons (unmarked_statement hConv hName statement) .nil
  | guarded condition statements =>
    have hCondition := newline_notMem_conditionRender hConv hName condition
    refine .append (.append (.cons ?_ .nil) (.map fun statement _ =>
      unmarked_statement hConv hName statement)) (.cons ?_ .nil)
    · exact unmarked_concat (c := '{') (by simp [hCondition]) (by simp) (by decide)
    · exact unmarked_concat (c := '}') (by simp) (by simp) (by decide)

theorem mem_order {edge : Edge} {fields : List FieldDecl} :
    field ∈ edge.order fields ↔ field ∈ fields := by
  cases edge <;> simp [Edge.order]

theorem unmarked_caseBlock (hConv : conv.OneLine) (edge : Edge) (hNode : node.OneLine)
    (hTag : '\n' ∉ tag) : Block.Unmarked (caseBlock conv edge node tag) := by
  have hAbsent : '\n' ∉ Expr.absentToken.render conv [] :=
    newline_notMem_exprRender hConv (by simp) _
  refine .append (.append (.append (.cons (unmarked_caseOpening hConv hTag) .nil) ?_)
    (.flatMap fun field hField => unmarked_checkBlock hConv
      (hNode.fields field (mem_order.mp hField)).name _))
    (.cons ?_ (.cons unmarked_caseClosing .nil))
  · split
    · exact .nil
    · exact .cons (unmarked_castLine hNode.name (by simp) (by simp)) .nil
  · exact unmarked_concat (c := ';') (by simp [hAbsent]) (by simp) (by decide)

end TokenSearch

namespace Construction

theorem newline_notMem_slotOf (hConv : conv.OneLine) (hField : field.OneLine) :
    '\n' ∉ slotOf conv field := by
  have hType := hField.type
  have hToken := hConv.tokenType
  have hNodes := hConv.nodeListMark
  have hSeparated := hConv.separatedListMark
  have hPointee : '\n' ∉ (field.type.dropEnd? ['*']).getD field.type := by
    rw [Text.dropEnd?]
    split
    · exact fun hMem => hType (List.mem_of_mem_take hMem)
    · exact hType
  rw [slotOf]
  cases field.kind conv <;> simp [slotFor, Text.concat, *]

theorem unmarked_slotLine (hConv : conv.OneLine) (hField : field.OneLine) :
    Unmarked (slotLine conv field).text := by
  have hSlot := newline_notMem_slotOf hConv hField
  have hName := hField.name
  exact unmarked_concat (c := ';') (by simp [hSlot, hName]) (by simp) (by decide)

theorem unmarked_setter {name : Text} (hConv : conv.OneLine) (hNode : '\n' ∉ name)
    (hField : field.OneLine) : Block.Unmarked (setter conv name field) := by
  have hSlot := newline_notMem_slotOf hConv hField
  have hName := hField.name
  have hSetter : '\n' ∉ setterFor field.name := Text.newline_notMem_capitalize hName
  refine .cons unmarked_nil (.cons ?_ (.cons ?_ (.cons ?_ (.cons ?_ .nil))))
  · exact unmarked_concat (c := '{') (by simp [hNode, hSetter, hSlot]) (by simp) (by decide)
  · exact unmarked_concat (c := ';') (by simp [hName]) (by simp) (by decide)
  · exact unmarked_concat (c := ';') (by simp) (by simp) (by decide)
  · exact unmarked_concat (c := '}') (by simp) (by simp) (by decide)

theorem unmarked_assignment (hField : field.OneLine) : Unmarked (assignment conv field).text := by
  have hName := hField.name
  have hType := hField.type
  unfold assignment
  split
  all_goals exact unmarked_concat (c := ';') (by simp [hName, hType]) (by simp) (by decide)

theorem unmarked_build (hConv : conv.OneLine) (hNode : node.OneLine) (hTag : '\n' ∉ tag) :
    Block.Unmarked (build conv node tag) := by
  have hRoot := hConv.rootType
  have hEnum := hConv.tagEnum
  have hName := hNode.name
  refine .append (.append (.cons unmarked_nil (.cons ?_ (.cons ?_ (.cons ?_ .nil))))
    (.map fun field hField => unmarked_assignment (hNode.fields field hField)))
    (.cons ?_ (.cons ?_ .nil))
  · exact unmarked_concat (c := '{') (by simp [hRoot]) (by simp) (by decide)
  · exact unmarked_concat (c := ';') (by simp [hName]) (by simp) (by decide)
  · exact unmarked_concat (c := ';') (by simp [hEnum, hTag]) (by simp) (by decide)
  · exact unmarked_concat (c := ';') (by simp) (by simp) (by decide)
  · exact unmarked_concat (c := '}') (by simp) (by simp) (by decide)

theorem unmarked_builderType (hConv : conv.OneLine) (hNode : node.OneLine) (hTag : '\n' ∉ tag) :
    Block.Unmarked (builderType conv node tag) := by
  have hName := hNode.name
  have hBase : '\n' ∉ node.base?.getD conv.rootType := by
    cases hBase : node.base? with
    | none => exact hConv.rootType
    | some base => exact hNode.base base hBase
  refine .append (.append (.append (.append (.append (.cons ?_ .nil) ?_)
    (.map fun field hField => unmarked_slotLine hConv (hNode.fields field hField)))
    (.flatMap fun field hField => unmarked_setter hConv hName (hNode.fields field hField)))
    (unmarked_build hConv hNode hTag)) (.cons unmarked_nil (.cons ?_ .nil))
  · exact unmarked_concat (c := '{') (by simp [hName, hBase]) (by simp) (by decide)
  · split
    · exact .nil
    · exact .cons unmarked_nil .nil
  · exact unmarked_concat (c := ';') (by simp) (by simp) (by decide)

theorem unmarked_factoryMethod {name : Text} (hName : '\n' ∉ name) :
    Block.Unmarked (factoryMethod name) := by
  refine .cons ?_ (.cons ?_ (.cons ?_ (.cons ?_ (.cons ?_ (.cons ?_ .nil)))))
  · exact unmarked_concat (c := '{') (by simp [hName]) (by simp) (by decide)
  · exact unmarked_concat (c := ';') (by simp [hName]) (by simp) (by decide)
  · exact unmarked_concat (c := ';') (by simp [hName]) (by simp) (by decide)
  · exact unmarked_concat (c := ';') (by simp) (by simp) (by decide)
  · exact unmarked_concat (c := ';') (by simp) (by simp) (by decide)
  · exact unmarked_concat (c := '}') (by simp) (by simp) (by decide)

end Construction

end Code

end NodeScaffold
