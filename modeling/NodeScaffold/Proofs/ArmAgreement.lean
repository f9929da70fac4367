import Mathlib.Data.List.Nodup
import NodeScaffold.Proofs.CodeLines
import NodeScaffold.Proofs.Lexing

/-! # What the arms of a node tell about its fields

Each output that dispatches on tags writes some lines for every field. These lines show the name and
the kind of the field and nothing else, so from the arms of a node its fields can be read back, and
two outputs never see a field differently. -/
namespace NodeScaffold
open Code
set_option autoImplicit false

section Codes
variable {α β κ : Type} {code : α → List β} {key : α → κ} {items items' : List α}

theorem flatMap_eq_of_map_eq (hCode : ∀ a b, key a = key b → code a = code b)
    (h : items.map key = items'.map key) : items.flatMap code = items'.flatMap code := by
  induction items generalizing items' with
  | nil => rw [List.map_eq_nil_iff.mp h.symm]
  | cons a items ih =>
    obtain ⟨b, rest, rfl, hHead, hTail⟩ := List.map_eq_cons_iff.mp h.symm
    rw [List.flatMap_cons, List.flatMap_cons, hCode a b hHead.symm, ih hTail.symm]

/-- If the start of a text tells which item it codes, the whole text tells all of them. -/
theorem map_eq_of_flatMap_eq (hCode : ∀ a b, key a = key b → code a = code b)
    (hNonempty : ∀ a, code a ≠ [])
    (hDecode : ∀ a ∈ items, ∀ b ∈ items', ∀ x y, code a ++ x = code b ++ y → key a = key b)
    (h : items.flatMap code = items'.flatMap code) : items.map key = items'.map key := by
  induction items generalizing items' with
  | nil =>
    cases items' with
    | nil => rfl
    | cons b items' => exact absurd (List.append_eq_nil_iff.mp h.symm).1 (hNonempty b)
  | cons a items ih =>
    cases items' with
    | nil => exact absurd (List.append_eq_nil_iff.mp h).1 (hNonempty a)
    | cons b items' =>
      rw [List.flatMap_cons, List.flatMap_cons] at h
      have hKey := hDecode a List.mem_cons_self b List.mem_cons_self _ _ h
      rw [hCode a b hKey] at h
      have hTail := ih (fun c hc d hd => hDecode c (List.mem_cons_of_mem _ hc) d
        (List.mem_cons_of_mem _ hd)) (List.append_cancel_left h)
      rw [List.map_cons, List.map_cons, hKey, hTail]

end Codes

theorem word_append_cancel {w w' rest rest' : Text} (hw : ∀ c ∈ w, isWordPart c)
    (hw' : ∀ c ∈ w', isWordPart c) (hRest : ∀ c ∈ rest.head?, isWordPart c = false)
    (hRest' : ∀ c ∈ rest'.head?, isWordPart c = false) (h : w ++ rest = w' ++ rest') :
    w = w' ∧ rest = rest' := span_append_cancel hw hw' hRest hRest' h

/-- Where a line goes on after its first word tells it apart from other lines. -/
theorem not_isPrefix_of_ne {start word rest : Text} {c d : Char}
    (hStart : (start.dropWhile isWordPart).head? = some c) (hWord : ∀ c ∈ word, isWordPart c)
    (hd : isWordPart d = false) (hNe : c ≠ d) : ¬start <+: word ++ d :: rest := by
  rintro ⟨more, h⟩
  obtain ⟨following, hFollowing⟩ := List.head?_eq_some_iff.mp hStart
  have hDrop := congrArg (List.dropWhile isWordPart) h
  rw [List.dropWhile_append, List.dropWhile_append_of_pos hWord, hFollowing] at hDrop
  simp only [List.isEmpty_cons, Bool.false_eq_true, if_false, List.cons_append, hd,
    not_false_eq_true, List.dropWhile_cons_of_neg] at hDrop
  exact hNe (List.cons.inj hDrop).1

/-- The outputs that have arms for the tags of a node. -/
inductive Dispatch where
  | comparison
  | printing
  | touching
  | search (edge : TokenSearch.Edge)
deriving DecidableEq, Repr

def FieldDecl.outline (conv : Conventions) (field : FieldDecl) : Text × FieldKind :=
  (field.name, field.kind conv)

namespace Dispatch

def artifact : Dispatch → Artifact
  | comparison => .equality
  | printing => .printer
  | touching => .toucher
  | search _ => .tokenBoundary

def place : Dispatch → Section
  | comparison | printing | touching => .cases
  | search .first => .firstToken
  | search .last => .lastToken

def arms (conv : Conventions) (node : NodeDecl) (d : Dispatch) :
    Except EmissionError (List Block) :=
  (d.artifact.fragments conv [node]).map fun fragments =>
    (fragments.filter (·.place = d.place)).map Fragment.body

def arm (conv : Conventions) (node : NodeDecl) (tag : Text) : Dispatch → Block
  | comparison => Comparison.caseBlock conv node tag
  | printing => Printing.caseBlock conv node tag
  | touching => Touching.caseBlock conv node tag
  | search edge => TokenSearch.caseBlock conv edge node tag

def armTags (node : NodeDecl) : Dispatch → List Text
  | comparison => node.tags.take 1
  | printing | touching | search _ => node.tags

def fieldCode (conv : Conventions) (field : FieldDecl) : Dispatch → Block
  | comparison => [Comparison.compare conv field]
  | printing => Printing.print conv field
  | touching => [Touching.touch conv field]
  | search edge => (TokenSearch.Check.of edge (field.kind conv)).block conv field.name

def order (fields : List FieldDecl) : Dispatch → List FieldDecl
  | comparison | printing | touching => fields
  | search edge => edge.order fields

variable {node : NodeDecl}

theorem arms_eq (d : Dispatch) (conv : Conventions) (hTags : node.tags ≠ [])
    (hFields : node.fields ≠ []) :
    d.arms conv node = .ok ((d.armTags node).map (d.arm conv node)) := by
  obtain ⟨tag, tags, hCons⟩ := List.exists_cons_of_ne_nil hTags
  have hBare : node.isBare = false := by simpa [NodeDecl.isBare] using hFields
  rw [arms]
  cases d with
  | comparison =>
    simp [artifact, Artifact.fragments, Artifact.comparisonFragment, NodeDecl.leadTag,
      NodeDecl.leadTag?, hCons, bind, Except.bind, pure, Except.pure, Except.map, place, armTags,
      arm]
  | printing =>
    simp [artifact, Artifact.fragments, Artifact.printingFragments, Except.map, place, armTags,
      List.map_eq_flatMap, List.filter_flatMap, List.flatMap_assoc, arm]
  | touching =>
    simp [artifact, Artifact.fragments, Artifact.touchingFragments, hBare, Except.map, place,
      armTags, List.map_eq_flatMap, List.filter_flatMap, List.flatMap_assoc, arm]
  | search edge =>
    cases edge <;>
    simp [artifact, Artifact.fragments, Artifact.tokenSearchFragments, Except.map, place, armTags,
      List.map_eq_flatMap, List.filter_flatMap, List.flatMap_assoc, arm]

/-- Between lines that do not depend on the fields, an arm holds the code of its fields. -/
theorem exists_arm_eq (d : Dispatch) (conv : Conventions) (name tag : Text) :
    ∃ before after : Block, ∀ node : NodeDecl, node.name = name → node.fields ≠ [] →
      d.arm conv node tag =
        before ++ (d.order node.fields).flatMap (d.fieldCode conv) ++ after := by
  have hBare {node : NodeDecl} (h : node.fields ≠ []) : node.isBare = false := by
    simpa [NodeDecl.isBare] using h
  cases d with
  | comparison =>
    exact ⟨_, _, fun node hName _ => by
      rw [arm, Comparison.caseBlock, hName, List.map_eq_flatMap]; rfl⟩
  | printing =>
    exact ⟨_, _, fun node hName hFields => by
      rw [arm, Printing.caseBlock, hName, hBare hFields]; rfl⟩
  | touching =>
    exact ⟨_, _, fun node hName _ => by
      rw [arm, Touching.caseBlock, hName, List.map_eq_flatMap]; rfl⟩
  | search edge =>
    exact ⟨_, _, fun node hName hFields => by
      rw [arm, TokenSearch.caseBlock, hName, hBare hFields]; rfl⟩

end Dispatch

namespace FieldKind

def all : List FieldKind := [token, tokenList, nodeList, separatedList, node]

theorem mem_all (kind : FieldKind) : kind ∈ all := by
  cases kind <;> decide

end FieldKind

namespace Code

def accessHead (conv : Conventions) (object : Text) : FieldKind → Text
  | .nodeList => Text.concat ["(", Conventions.untypedView conv.nodeListMark, "*)", object, "->"]
  | .separatedList =>
    Text.concat ["(", Conventions.untypedView conv.separatedListMark, "*)", object, "->"]
  | .token | .tokenList | .node => Text.concat [object, "->"]

theorem access_eq (conv : Conventions) (object : Text) (field : FieldDecl) :
    access conv object field = accessHead conv object (field.kind conv) ++ field.name := by
  rw [access]
  cases field.kind conv <;> simp [accessHead, Text.concat]

/-- A table of function names, each a word that tells the kind of field it is for. -/
structure NamesKinds (function : FieldKind → Text) : Prop where
  word : ∀ kind, ∀ c ∈ function kind, isWordPart c
  injective : function.Injective

/-- A table is one that tells the kinds if its five entries are distinct words. -/
theorem NamesKinds.of_kinds {function : FieldKind → Text}
    (hWord : (FieldKind.all.all fun kind => (function kind).all isWordPart) = true)
    (hDistinct : (FieldKind.all.map function).Nodup) : NamesKinds function where
  word kind := List.all_eq_true.mp (List.all_eq_true.mp hWord kind kind.mem_all)
  injective kind kind' h :=
    List.inj_on_of_nodup_map hDistinct kind.mem_all kind'.mem_all h

theorem Comparison.namesKinds_function : NamesKinds Comparison.function :=
  .of_kinds (by with_unfolding_all decide) (by with_unfolding_all decide)

theorem Printing.namesKinds_function : NamesKinds Printing.function :=
  .of_kinds (by with_unfolding_all decide) (by with_unfolding_all decide)

theorem Touching.namesKinds_function : NamesKinds Touching.function :=
  .of_kinds (by with_unfolding_all decide) (by with_unfolding_all decide)

theorem ofString_parenOpen : Text.ofString "(" = ['('] := by simp [Text.ofString]

variable {conv : Conventions} {field field' : FieldDecl}

/-- A call for a field tells the kind of the field by its function, and then the name. -/
theorem outline_eq_of_call_eq {function : FieldKind → Text} (hFunction : NamesKinds function)
    {object rest rest' : Text} (hName : isWord field.name) (hName' : isWord field'.name)
    (hRest : ∀ c ∈ rest.head?, isWordPart c = false)
    (hRest' : ∀ c ∈ rest'.head?, isWordPart c = false)
    (h : function (field.kind conv) ++ (Text.ofString "(" ++ (access conv object field ++ rest)) =
      function (field'.kind conv) ++ (Text.ofString "(" ++ (access conv object field' ++ rest'))) :
    field.outline conv = field'.outline conv := by
  rw [ofString_parenOpen, access_eq, access_eq] at h
  obtain ⟨hFunctions, hCall⟩ := word_append_cancel (hFunction.word _) (hFunction.word _)
    (by simp [isWordPart]) (by simp [isWordPart]) h
  have hKind := hFunction.injective hFunctions
  rw [hKind, List.append_assoc, List.append_assoc] at hCall
  -- what stands before the name hangs on the kind alone
  have hNames := List.append_cancel_left (List.append_cancel_left hCall)
  have hSame := (word_append_cancel (fun c => isWordPart_of_mem hName)
    (fun c => isWordPart_of_mem hName') hRest hRest' hNames).1
  rw [FieldDecl.outline, FieldDecl.outline, hSame, hKind]

theorem outline_eq_of_compare_eq (hName : isWord field.name) (hName' : isWord field'.name)
    (h : (Comparison.compare conv field).text = (Comparison.compare conv field').text) :
    field.outline conv = field'.outline conv := by
  simp only [Comparison.compare, CodeLine.line, Text.concat, List.flatten_cons,
    List.append_cancel_left_eq] at h
  exact outline_eq_of_call_eq Comparison.namesKinds_function hName hName'
    (by simp [Text.ofString, isWordPart]) (by simp [Text.ofString, isWordPart]) h

theorem outline_eq_of_callLine_eq {function : FieldKind → Text} (hFunction : NamesKinds function)
    (hName : isWord field.name) (hName' : isWord field'.name)
    (h : Text.concat [function (field.kind conv), "(", access conv "p" field, ");"] =
      Text.concat [function (field'.kind conv), "(", access conv "p" field', ");"]) :
    field.outline conv = field'.outline conv := by
  simp only [Text.concat, List.flatten_cons] at h
  exact outline_eq_of_call_eq hFunction hName hName' (by simp [Text.ofString, isWordPart])
    (by simp [Text.ofString, isWordPart]) h

namespace TokenSearch

/-- What follows the name at the start of a check, as far as it tells the kind of the field. -/
def sign (name : Text) : FieldKind → Text
  | .token => "."
  | .node => " != nullptr)"
  | .separatedList => Text.concat [" != nullptr && p->", name, "->itemCount"]
  | .tokenList => Text.concat [" != nullptr && p->", name, "->size != 0) return p"]
  | .nodeList => Text.concat [" != nullptr && p->", name, "->size != 0) return G"]

theorem head_sign (name : Text) (kind : FieldKind) (rest : Text) :
    ∀ c ∈ (sign name kind ++ rest).head?, isWordPart c = false := by
  cases kind <;> simp [sign, Text.concat, Text.ofString, isWordPart]

theorem sign_cancel {name : Text} {kind kind' : FieldKind} {rest rest' : Text}
    (h : sign name kind ++ rest = sign name kind' ++ rest') : kind = kind' := by
  cases kind <;> cases kind' <;> simp [sign, Text.concat, Text.ofString] at h ⊢

theorem exists_checkBlock_eq (conv : Conventions) (edge : Edge) (kind : FieldKind) (name : Text) :
    ∃ rest lines, ((Check.of edge kind).block conv name).map CodeLine.text =
      (Text.ofString "if(p->" ++ (name ++ (sign name kind ++ rest))) :: lines := by
  cases kind <;> cases edge <;>
  simp [Check.of, Check.block, Statement.line, Condition.render, Expr.render, hasElements,
    Edge.element, CodeLine.line, CodeLine.opening, CodeLine.closing, Text.concat, Text.ofString,
    Member.name, Edge.function, sign]

theorem outline_eq_of_check_eq {edge : Edge} (hName : isWord field.name)
    (hName' : isWord field'.name) {x y : List Text}
    (h : ((Check.of edge (field.kind conv)).block conv field.name).map CodeLine.text ++ x =
      ((Check.of edge (field'.kind conv)).block conv field'.name).map CodeLine.text ++ y) :
    field.outline conv = field'.outline conv := by
  obtain ⟨rest, lines, hLines⟩ := exists_checkBlock_eq conv edge (field.kind conv) field.name
  obtain ⟨rest', lines', hLines'⟩ := exists_checkBlock_eq conv edge (field'.kind conv) field'.name
  rw [hLines, hLines'] at h
  obtain ⟨hSame, hSign⟩ := word_append_cancel (fun c => isWordPart_of_mem hName)
    (fun c => isWordPart_of_mem hName') (head_sign _ _ _) (head_sign _ _ _)
    (List.append_cancel_left (List.cons.inj h).1)
  rw [← hSame] at hSign
  rw [FieldDecl.outline, FieldDecl.outline, hSame, sign_cancel hSign]

end TokenSearch

end Code

namespace Dispatch

variable {conv : Conventions} {field field' : FieldDecl} {node node' : NodeDecl}

theorem fieldCode_ne_nil (d : Dispatch) (field : FieldDecl) :
    (d.fieldCode conv field).map CodeLine.text ≠ [] := by
  cases d with
  | comparison | printing | touching => exact List.cons_ne_nil _ _
  | search edge =>
    obtain ⟨rest, lines, hLines⟩ :=
      TokenSearch.exists_checkBlock_eq conv edge (field.kind conv) field.name
    rw [fieldCode, hLines]
    exact List.cons_ne_nil _ _

/-- The code of a field shows nothing but its name and kind. -/
theorem fieldCode_congr (d : Dispatch) (h : field.outline conv = field'.outline conv) :
    d.fieldCode conv field = d.fieldCode conv field' := by
  obtain ⟨hName, hKind⟩ := Prod.mk.inj h
  cases d with
  | comparison => simp only [fieldCode, Comparison.compare, access_eq, hName, hKind]
  | printing => simp only [fieldCode, Printing.print, access_eq, hName, hKind]
  | touching => simp only [fieldCode, Touching.touch, access_eq, hName, hKind]
  | search edge => simp only [fieldCode, hName, hKind]

/-- The code of a field shows its name and kind, whatever comes after it. -/
theorem outline_eq_of_fieldCode_eq (d : Dispatch) (hName : isWord field.name)
    (hName' : isWord field'.name) {x y : List Text}
    (h : (d.fieldCode conv field).map CodeLine.text ++ x =
      (d.fieldCode conv field').map CodeLine.text ++ y) :
    field.outline conv = field'.outline conv := by
  cases d with
  | comparison => exact outline_eq_of_compare_eq hName hName' (List.cons.inj h).1
  | printing =>
    exact outline_eq_of_callLine_eq Printing.namesKinds_function hName hName'
      (List.cons.inj (List.cons.inj h).2).1
  | touching =>
    exact outline_eq_of_callLine_eq Touching.namesKinds_function hName hName' (List.cons.inj h).1
  | search edge => exact TokenSearch.outline_eq_of_check_eq hName hName' h

theorem mem_order {d : Dispatch} {fields : List FieldDecl} :
    field ∈ d.order fields ↔ field ∈ fields := by
  cases d with
  | comparison | printing | touching => rfl
  | search edge => exact TokenSearch.mem_order

theorem map_order_eq_iff {κ : Type} (d : Dispatch) (key : FieldDecl → κ)
    {fields fields' : List FieldDecl} :
    (d.order fields).map key = (d.order fields').map key ↔ fields.map key = fields'.map key := by
  cases d with
  | comparison | printing | touching => rfl
  | search edge => cases edge <;> simp [order, TokenSearch.Edge.order]

theorem arm_eq_of_outlines_eq (d : Dispatch) (tag : Text) (hName : node.name = node'.name)
    (hFields : node.fields ≠ []) (hFields' : node'.fields ≠ [])
    (h : node.fields.map (·.outline conv) = node'.fields.map (·.outline conv)) :
    d.arm conv node tag = d.arm conv node' tag := by
  obtain ⟨before, after, hArm⟩ := d.exists_arm_eq conv node.name tag
  rw [hArm node rfl hFields, hArm node' hName.symm hFields',
    flatMap_eq_of_map_eq (fun _ _ => d.fieldCode_congr) ((d.map_order_eq_iff _).mpr h)]

/-- The texts of an arm alone tell the names and kinds of all fields, in their order. -/
theorem outlines_eq_of_arm_eq (d : Dispatch) {tag : Text} (hName : node.name = node'.name)
    (hFields : node.fields ≠ []) (hFields' : node'.fields ≠ [])
    (hWords : ∀ field ∈ node.fields, isWord field.name)
    (hWords' : ∀ field ∈ node'.fields, isWord field.name)
    (h : (d.arm conv node tag).map CodeLine.text = (d.arm conv node' tag).map CodeLine.text) :
    node.fields.map (·.outline conv) = node'.fields.map (·.outline conv) := by
  obtain ⟨before, after, hArm⟩ := d.exists_arm_eq conv node.name tag
  rw [hArm node rfl hFields, hArm node' hName.symm hFields', List.map_append, List.map_append,
    List.map_append, List.map_append] at h
  have hCode := List.append_cancel_left (List.append_cancel_right h)
  rw [List.map_flatMap, List.map_flatMap] at hCode
  refine (d.map_order_eq_iff _).mp (map_eq_of_flatMap_eq
    (fun _ _ hOutline => by rw [d.fieldCode_congr hOutline]) d.fieldCode_ne_nil ?_ hCode)
  exact fun f hf f' hf' _ _ => d.outline_eq_of_fieldCode_eq (hWords f (mem_order.mp hf))
    (hWords' f' (mem_order.mp hf'))

theorem armTags_ne_nil (d : Dispatch) (hTags : node.tags ≠ []) : d.armTags node ≠ [] := by
  obtain ⟨tag, tags, hCons⟩ := List.exists_cons_of_ne_nil hTags
  cases d <;> simp [armTags, hCons]

theorem armTags_congr (d : Dispatch) (hTags : node.tags = node'.tags) :
    d.armTags node = d.armTags node' := by
  cases d <;> simp [armTags, hTags]

theorem map_arm_eq_of_outlines_eq (d : Dispatch) (hName : node.name = node'.name)
    (hTags : node.tags = node'.tags) (hFields : node.fields ≠ []) (hFields' : node'.fields ≠ [])
    (h : node.fields.map (·.outline conv) = node'.fields.map (·.outline conv)) :
    (d.armTags node).map (d.arm conv node) = (d.armTags node').map (d.arm conv node') := by
  rw [d.armTags_congr hTags]
  exact List.map_congr_left fun tag _ => d.arm_eq_of_outlines_eq tag hName hFields hFields' h

theorem map_text_eq_of_rows_eq {block block' : Block} (h : block.rows = block'.rows) :
    block.map CodeLine.text = block'.map CodeLine.text := by
  rw [← Block.map_text_rowsFrom 0, ← Block.map_text_rowsFrom 0]
  exact congrArg (List.map Row.text) h

theorem outlines_eq_of_map_rows_eq (d : Dispatch) (hName : node.name = node'.name)
    (hTags : node.tags = node'.tags) (hTagged : node.tags ≠ []) (hFields : node.fields ≠ [])
    (hFields' : node'.fields ≠ []) (hWords : ∀ field ∈ node.fields, isWord field.name)
    (hWords' : ∀ field ∈ node'.fields, isWord field.name)
    (h : ((d.armTags node).map (d.arm conv node)).map Block.rows =
      ((d.armTags node').map (d.arm conv node')).map Block.rows) :
    node.fields.map (·.outline conv) = node'.fields.map (·.outline conv) := by
  -- the arm of the first tag is enough to tell the fields
  obtain ⟨tag, tags, hCons⟩ := List.exists_cons_of_ne_nil (d.armTags_ne_nil hTagged)
  rw [← d.armTags_congr hTags, hCons] at h
  exact d.outlines_eq_of_arm_eq hName hFields hFields' hWords hWords'
    (map_text_eq_of_rows_eq (List.cons.inj h).1)

end Dispatch

/-- Two nodes of one name and the same tags have the same arms in one output exactly if they have
the same arms in every other, namely if their fields agree in name and kind and stand in the same
order. It makes no difference whether arms are compared as blocks or as their written rows. -/
theorem arms_agree {conv : Conventions} {node node' : NodeDecl} (hName : node.name = node'.name)
    (hTags : node.tags = node'.tags) (hTagged : node.tags ≠ []) (hFields : node.fields ≠ [])
    (hFields' : node'.fields ≠ []) (hWords : ∀ field ∈ node.fields, isWord field.name)
    (hWords' : ∀ field ∈ node'.fields, isWord field.name) :
    (∀ d : Dispatch, ∃ arms arms', arms ≠ [] ∧
      d.arms conv node = .ok arms ∧ d.arms conv node' = .ok arms' ∧
      (arms = arms' ↔
        node.fields.map (·.outline conv) = node'.fields.map (·.outline conv)) ∧
      (arms.map Block.rows = arms'.map Block.rows ↔
        node.fields.map (·.outline conv) = node'.fields.map (·.outline conv))) ∧
    ∀ d d' : Dispatch,
      d.arms conv node = d.arms conv node' ↔ d'.arms conv node = d'.arms conv node' := by
  have hArms (d : Dispatch) := d.arms_eq conv hTagged hFields
  have hArms' (d : Dispatch) := d.arms_eq conv (hTags ▸ hTagged) hFields'
  have hBlocks (d : Dispatch) : (d.armTags node).map (d.arm conv node) =
      (d.armTags node').map (d.arm conv node') ↔
        node.fields.map (·.outline conv) = node'.fields.map (·.outline conv) := by
    constructor
    · intro h
      exact d.outlines_eq_of_map_rows_eq hName hTags hTagged hFields hFields' hWords hWords'
        (congrArg (List.map Block.rows) h)
    · exact d.map_arm_eq_of_outlines_eq hName hTags hFields hFields'
  constructor
  · intro d
    refine ⟨_, _, by simpa using d.armTags_ne_nil hTagged, hArms d, hArms' d, hBlocks d, ?_, ?_⟩
    · exact d.outlines_eq_of_map_rows_eq hName hTags hTagged hFields hFields' hWords hWords'
    · intro h
      exact congrArg (List.map Block.rows) ((hBlocks d).mpr h)
  · intro d d'
    rw [hArms, hArms', hArms, hArms', Except.ok.injEq, Except.ok.injEq, hBlocks, hBlocks]

def unaryNode (type : Text) : NodeDecl := ⟨"Unary", none, [⟨"operand", type⟩], ["Not", "Minus"]⟩

theorem arms_agree_unaryNode :
    (∀ d : Dispatch, d.arms .standard (unaryNode "Expr*") = d.arms .standard (unaryNode "Type*")) ∧
    ∀ d : Dispatch,
      d.arms .standard (unaryNode "Expr*") ≠ d.arms .standard (unaryNode "SyntaxToken") := by
  have hOperand : isWord "operand" := by with_unfolding_all decide
  have hWord (type : Text) : ∀ field ∈ (unaryNode type).fields, isWord field.name := by
    simpa [unaryNode] using hOperand
  have hAgree (type type' : Text) (d : Dispatch) :
      d.arms .standard (unaryNode type) = d.arms .standard (unaryNode type') ↔
        FieldKind.ofType .standard type = FieldKind.ofType .standard type' := by
    obtain ⟨arms, arms', -, hArms, hArms', hIff, -⟩ :=
      (@arms_agree .standard (unaryNode type) (unaryNode type') rfl rfl (by simp [unaryNode])
        (by simp [unaryNode]) (by simp [unaryNode]) (hWord type) (hWord type')).1 d
    rw [hArms, hArms', Except.ok.injEq, hIff]
    simp [unaryNode, FieldDecl.outline, FieldDecl.kind]
  refine ⟨fun d => (hAgree _ _ d).mpr ?_, fun d h => absurd ((hAgree _ _ d).mp h) ?_⟩
  · with_unfolding_all decide
  · with_unfolding_all decide

end NodeScaffold
