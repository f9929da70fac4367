import Mathlib.Data.List.Forall2
import NodeScaffold.Proofs.CodeLines
import NodeScaffold.Proofs.Sections

/-! # Slots of a builder

The three loops over the fields of a node write the slots, the setters and the assignments of its
builder. Here a slot is one thing, with a name, a type and the way in which its value gets into the
node, and a builder type is what the list of its slots makes it, between lines that no field has a
part in. -/
namespace NodeScaffold
set_option autoImplicit false

namespace Code.Construction

inductive SlotUse where
  | copied
  /-- built, unless the slot is null, and cast to the given type -/
  | built (type : Text)

structure Slot where
  name : Text
  type : Text
  use : SlotUse

namespace Slot

def declaration (slot : Slot) : CodeLine := .line [slot.type, " ", slot.name, " \x7b\x7d;"]

def setter (builder : Text) (slot : Slot) : Block := [
  .opening ["inline ", builder, "* ", setterFor slot.name, "(", slot.type, " builder) \x7b"],
  .line [slot.name, " = builder;"],
  .line ["return this;"],
  .closing ["\x7d"]]

def assignment (slot : Slot) : CodeLine :=
  match slot.use with
  | .copied => .line ["retn->", slot.name, " = ", slot.name, ";"]
  | .built type =>
    .line ["retn->", slot.name, " = ", slot.name, " != nullptr ? (", type, ")", slot.name,
      "->Build() : nullptr;"]

/-- The slot holds what a field needs: a value of the type of the field, if its kind is one of
tokens, and else a builder for such a value. -/
structure Serves (conv : Conventions) (field : FieldDecl) (slot : Slot) : Prop where
  name : slot.name = field.name
  copied_iff : slot.use = .copied ↔
    FieldKind.ofType conv field.type = .token ∨ FieldKind.ofType conv field.type = .tokenList
  copied : slot.use = .copied → slot.type = field.type
  built : slot.use ≠ .copied →
    Text.ofString "Builder*" <:+ slot.type ∧ slot.use = .built field.type

def ofField (conv : Conventions) (field : FieldDecl) : Slot where
  name := field.name
  type := slotOf conv field
  use := match field.kind conv with
    | .token | .tokenList => .copied
    | .nodeList | .separatedList | .node => .built field.type

/-- A type is taken for that of a token only if it is spelled the same, whatever the marks are. -/
theorem eq_tokenType_of_kind {conv : Conventions} {type : Text}
    (h : FieldKind.ofType conv type = .token) : type = conv.tokenType := by
  unfold FieldKind.ofType at h
  split_ifs at h with _ _ hType
  exact hType

theorem serves_ofField (conv : Conventions) (field : FieldDecl) :
    Serves conv field (ofField conv field) := by
  have hConcat (t : Text) : Text.ofString "Builder*" <:+ Text.concat [t, "Builder*"] := by
    simp [Text.concat]
  cases hKind : field.kind conv with
  | token =>
    have hType := eq_tokenType_of_kind hKind
    constructor <;> simp_all [ofField, FieldDecl.kind, slotOf, slotFor]
  | tokenList => constructor <;> simp_all [ofField, FieldDecl.kind, slotOf, slotFor]
  | nodeList | separatedList | node =>
    constructor <;> simp_all [ofField, FieldDecl.kind, slotOf, slotFor]

end Slot

end Code.Construction

def Block.written (block : Block) : Block := block.filter fun line => !line.text.isEmpty

namespace Block

theorem written_append (block block' : Block) :
    (block ++ block').written = block.written ++ block'.written := List.filter_append ..

theorem written_eq_self {block : Block} (h : ∀ line ∈ block, line.text ≠ []) :
    block.written = block :=
  List.filter_eq_self.mpr fun line hLine => by simpa using h line hLine

theorem written_flatMap {α : Type} (items : List α) (f : α → Block) :
    Block.written (items.flatMap f) = items.flatMap fun a => (f a).written :=
  List.filter_flatMap

end Block

theorem Text.concat_ne_nil {pieces : List Text} (s : String) (hMem : Text.ofString s ∈ pieces)
    (h : s ≠ "") : Text.concat pieces ≠ [] := by
  intro hNil
  have hPiece := List.flatten_eq_nil_iff.mp hNil _ hMem
  exact h (by simpa [Text.ofString] using hPiece)

namespace Code.Construction
variable (conv : Conventions)

theorem written_slotLines (fields : List FieldDecl) :
    Block.written (fields.map (slotLine conv)) =
      (fields.map (Slot.ofField conv)).map Slot.declaration := by
  have hSame : fields.map (slotLine conv) =
      (fields.map (Slot.ofField conv)).map Slot.declaration := by
    rw [List.map_map]
    rfl
  rw [← hSame]
  apply Block.written_eq_self
  rintro _ hLine
  obtain ⟨field, -, rfl⟩ := List.mem_map.mp hLine
  exact Text.concat_ne_nil " \x7b\x7d;" (by simp) (by decide)

/-- Without the blank line in front, the setter of a field is that of its slot. -/
theorem written_setter (node : Text) (field : FieldDecl) :
    Block.written (setter conv node field) =
      (Slot.ofField conv field).setter (Text.concat [node, "Builder"]) := by
  have hHead : Text.concat ["inline ", node, "Builder* ", setterFor field.name, "(",
      slotOf conv field, " builder) \x7b"] =
      Text.concat ["inline ", Text.concat [node, "Builder"], "* ", setterFor field.name, "(",
        slotOf conv field, " builder) \x7b"] := by
    simp [Text.concat, Text.ofString]
  have hLines : setter conv node field =
      [CodeLine.blank] ++ (Slot.ofField conv field).setter (Text.concat [node, "Builder"]) := by
    rw [setter, CodeLine.opening, hHead]
    rfl
  rw [hLines, Block.written_append]
  apply Block.written_eq_self
  simp only [Slot.setter, List.forall_mem_cons, List.not_mem_nil, false_imp_iff, implies_true,
    and_true]
  refine ⟨?_, ?_, ?_, ?_⟩
  · exact Text.concat_ne_nil "inline " (by simp) (by decide)
  · exact Text.concat_ne_nil " = builder;" (by simp) (by decide)
  · exact Text.concat_ne_nil "return this;" (by simp) (by decide)
  · exact Text.concat_ne_nil "\x7d" (by simp) (by decide)

theorem assignment_ofField (field : FieldDecl) :
    (Slot.ofField conv field).assignment = assignment conv field := by
  rw [Slot.assignment, assignment]
  cases hKind : field.kind conv <;> simp [Slot.ofField, hKind]

theorem written_assignments (fields : List FieldDecl) :
    Block.written (fields.map (assignment conv)) =
      (fields.map (Slot.ofField conv)).map Slot.assignment := by
  have hSame : fields.map (assignment conv) =
      (fields.map (Slot.ofField conv)).map Slot.assignment := by
    rw [List.map_map]
    exact List.map_congr_left fun field _ => (assignment_ofField conv field).symm
  rw [← hSame]
  apply Block.written_eq_self
  rintro _ hLine
  obtain ⟨field, -, rfl⟩ := List.mem_map.mp hLine
  unfold assignment
  split
  all_goals
    exact Text.concat_ne_nil "retn->" (by simp) (by decide)

/-- A builder type as its slots, between lines that stay the same whatever the fields are. -/
theorem written_builderType (name : Text) (base? : Option Text) (tags : List Text) (tag : Text)
    (fields : List FieldDecl) :
    Block.written (builderType conv ⟨name, base?, fields, tags⟩ tag) =
      Block.written
          [.opening ["struct ", name, "Builder : ", base?.getD conv.rootType, "Builder \x7b"]] ++
        (fields.map (Slot.ofField conv)).map Slot.declaration ++
        (fields.map (Slot.ofField conv)).flatMap
          (Slot.setter (Text.concat [name, "Builder"])) ++
        Block.written [.opening ["inline ", conv.rootType, "* Build() override \x7b"],
          .line [name, "* retn = allocator->Allocate<", name, ">(1);"],
          .line ["retn->_kind = ", conv.tagEnum, "::", tag, ";"]] ++
        (fields.map (Slot.ofField conv)).map Slot.assignment ++
        Block.written [.line ["return retn;"], .closing ["\x7d"], .closing ["\x7d;"]] := by
  have hBlank : Block.written (if fields.isEmpty then [] else [CodeLine.blank]) = [] := by
    split <;> rfl
  have hGap (block : Block) : Block.written (CodeLine.blank :: block) = block.written := rfl
  have hEnding := Block.written_append [.line ["return retn;"], .closing ["\x7d"]]
    [.closing ["\x7d;"]]
  rw [List.cons_append, List.cons_append, List.nil_append] at hEnding
  rw [builderType, build, NodeDecl.isBare, hEnding]
  simp only [Block.written_append, hBlank, written_slotLines, Block.written_flatMap,
    written_setter, written_assignments, hGap, List.flatMap_map, List.nil_append,
    List.append_assoc]

/-- Whatever fields a node with a tag has, its builder has for each of them, in their order, one slot
that serves it, one setter and one assignment, and no other line that is written for a field. -/
theorem builderFragment_slots (name : Text) (base? : Option Text) {tags : List Text}
    (h : tags ≠ []) :
    ∃ heading building ending : Block, ∀ fields : List FieldDecl, ∃ fragment slots,
      Artifact.builderFragment conv ⟨name, base?, fields, tags⟩ = .ok fragment ∧
      fragment.place = .nodeBuilders ∧
      List.Forall₂ (Slot.Serves conv) fields slots ∧
      fragment.body.written =
        heading ++ slots.map Slot.declaration ++
          slots.flatMap (Slot.setter (Text.concat [name, "Builder"])) ++
          building ++ slots.map Slot.assignment ++ ending := by
  obtain ⟨tag, others, rfl⟩ := List.exists_cons_of_ne_nil h
  refine ⟨_, _, _, fun fields => ⟨_, fields.map (Slot.ofField conv), rfl, rfl, ?_,
    written_builderType conv name base? (tag :: others) tag fields⟩⟩
  rw [List.forall₂_map_right_iff]
  exact List.forall₂_same.mpr fun field _ => Slot.serves_ofField conv field

/-- Conventions under which the token type starts like a list of nodes and like a token list. -/
def crowdedMarks : Conventions :=
  { nodeListMark := "Syntax", separatedListMark := "SyntaxList", tokenListMark := "" }

theorem builderFragment_slots_crowdedMarks :
    [Text.ofString "Sum"] ≠ [] ∧
    ∃ heading building ending : Block, ∀ fields : List FieldDecl, ∃ fragment slots,
      Artifact.builderFragment crowdedMarks ⟨"SumSyntax", none, fields, ["Sum"]⟩ = .ok fragment ∧
      fragment.place = .nodeBuilders ∧
      List.Forall₂ (Slot.Serves crowdedMarks) fields slots ∧
      fragment.body.written =
        heading ++ slots.map Slot.declaration ++
          slots.flatMap (Slot.setter (Text.concat ["SumSyntax", "Builder"])) ++
          building ++ slots.map Slot.assignment ++ ending :=
  ⟨by simp, builderFragment_slots crowdedMarks "SumSyntax" none (by simp)⟩

end Code.Construction

end NodeScaffold
