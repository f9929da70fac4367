import Mathlib.Data.Finset.Card
import NodeScaffold.Proofs.LogTruth

/-! # Looking nodes up by name

A catalog is a list of nodes and an index of their names. Pushing a node keeps the two in step: the
index has the place of the first node of each name, and a later node of that name does not move it
but is remarked on. What holds of one push is carried along all pushes onto an empty catalog. -/
namespace NodeScaffold
set_option autoImplicit false

variable {catalog : Catalog} {nodes : List NodeDecl} {name : Text}

/-! ## The index -/

/-- The catalog stands for the nodes that were pushed: it lists them in order, and its index gives
the place of the first one of each name and has no other names. -/
structure Catalog.Holds (catalog : Catalog) (nodes : List NodeDecl) : Prop where
  listed : catalog.toList = nodes
  indexed : ∀ name, catalog.index[name]? = nodes.findIdx? (·.name == name)

namespace Catalog

theorem holds_empty : Holds ∅ [] where
  listed := rfl
  indexed := by simp [EmptyCollection.emptyCollection, empty]

theorem Holds.size_eq (h : catalog.Holds nodes) : catalog.nodes.size = nodes.length := by
  rw [← h.listed, toList, Array.length_toList]

/-- A name that is there already keeps its place; a new one gets the place of the node. -/
theorem Holds.push (h : catalog.Holds nodes) (node : NodeDecl) :
    (catalog.push node).Holds (nodes ++ [node]) where
  listed := by rw [toList_push, h.listed]
  indexed := by
    intro name
    rw [Catalog.push, Std.HashMap.getElem?_insertIfNew, List.findIdx?_append,
      List.findIdx?_singleton, ← h.indexed]
    by_cases hName : node.name = name
    · subst hName
      by_cases hKnown : node.name ∈ catalog.index
      · simp [hKnown]
      · simp [hKnown, h.size_eq]
    · simp [hName]

theorem Holds.foldl_push (h : catalog.Holds nodes) (later : List NodeDecl) :
    (later.foldl Catalog.push catalog).Holds (nodes ++ later) := by
  induction later generalizing catalog nodes with
  | nil => simpa using h
  | cons node later ih => simpa using ih (h.push node)

theorem holds_ofList (nodes : List NodeDecl) : (ofList nodes).Holds nodes :=
  holds_empty.foldl_push nodes

/-! ## Looking up -/

namespace Holds

theorem get?_eq (h : catalog.Holds nodes) (name : Text) :
    catalog.get? name = nodes.find? (·.name == name) := by
  rw [get?, h.indexed, List.find?_eq_bind_findIdx?_getElem?, ← h.listed]
  simp [toList]

theorem get?_eq_some_iff (h : catalog.Holds nodes) {node : NodeDecl} :
    catalog.get? name = some node ↔ ∃ earlier later, nodes = earlier ++ node :: later ∧
      node.name = name ∧ name ∉ earlier.map NodeDecl.name := by
  rw [h.get?_eq, List.find?_eq_some_iff_append]
  constructor
  · rintro ⟨hName, earlier, later, rfl, hEarlier⟩
    exact ⟨earlier, later, rfl, by simpa using hName, by simpa using hEarlier⟩
  · rintro ⟨earlier, later, rfl, hName, hEarlier⟩
    exact ⟨by simpa using hName, earlier, later, rfl, by simpa using hEarlier⟩

theorem get?_eq_none_iff (h : catalog.Holds nodes) :
    catalog.get? name = none ↔ name ∉ nodes.map NodeDecl.name := by
  rw [h.get?_eq, List.find?_eq_none]
  simp

theorem getElem?_index_eq_some_iff (h : catalog.Holds nodes) {place : Nat} :
    catalog.index[name]? = some place ↔ ∃ hPlace : place < catalog.nodes.size,
      catalog.nodes[place].name = name ∧
      ∀ other (hOther : other < place), catalog.nodes[other].name ≠ name := by
  obtain ⟨rfl, hIndexed⟩ := h
  rw [hIndexed, List.findIdx?_eq_some_iff_getElem]
  simp [toList]

theorem declares_iff (h : catalog.Holds nodes) :
    catalog.declares name ↔ name ∈ nodes.map NodeDecl.name := by
  rw [declares, Std.HashMap.contains_eq_isSome_getElem?, h.indexed, List.findIdx?_isSome]
  simp

end Holds

end Catalog

/-! ## Remarks on duplicate names -/

namespace NodeDecl

def names (nodes : List NodeDecl) : Finset Text := (nodes.map NodeDecl.name).toFinset

@[simp] theorem names_nil : names [] = ∅ := rfl

theorem mem_names : name ∈ names nodes ↔ name ∈ nodes.map NodeDecl.name := List.mem_toFinset

theorem names_append_singleton (nodes : List NodeDecl) (node : NodeDecl) :
    names (nodes ++ [node]) = insert node.name (names nodes) := by
  ext name
  simp [mem_names, or_comm]

/-- The remarks on duplicate names while nodes are pushed one after the other. -/
def duplicateRemarks (known : Catalog) : List NodeDecl → List Event
  | [] => []
  | node :: nodes => node.duplicateRemark known ++ duplicateRemarks (known.push node) nodes

end NodeDecl

namespace Catalog.Holds

/-- A push makes a remark or adds a name. -/
theorem length_duplicateRemark_add_card (h : catalog.Holds nodes) (node : NodeDecl) :
    (node.duplicateRemark catalog).length + (NodeDecl.names (nodes ++ [node])).card =
      (NodeDecl.names nodes).card + 1 := by
  rw [NodeDecl.names_append_singleton, NodeDecl.duplicateRemark]
  by_cases hName : node.name ∈ nodes.map NodeDecl.name
  · rw [if_pos (h.declares_iff.mpr hName),
      Finset.card_insert_of_mem (NodeDecl.mem_names.mpr hName), List.length_singleton, Nat.add_comm]
  · rw [if_neg (mt h.declares_iff.mp hName),
      Finset.card_insert_of_notMem (mt NodeDecl.mem_names.mp hName), List.length_nil, Nat.zero_add]

theorem length_duplicateRemarks_add_card (h : catalog.Holds nodes) (later : List NodeDecl) :
    (NodeDecl.duplicateRemarks catalog later).length +
      (NodeDecl.names (nodes ++ later)).card = (NodeDecl.names nodes).card + later.length := by
  induction later generalizing catalog nodes with
  | nil => simp [NodeDecl.duplicateRemarks]
  | cons node later ih =>
    have hPush := h.length_duplicateRemark_add_card node
    have hLater := ih (h.push node)
    rw [List.append_assoc, List.singleton_append] at hLater
    rw [NodeDecl.duplicateRemarks, List.length_append, List.length_cons]
    omega

end Catalog.Holds

/-! ## Remarks in the log -/

def Event.isDuplicateName : Event → Bool
  | .duplicateName _ => true
  | _ => false

namespace Finding
variable (conv : Conventions)

theorem filter_isDuplicateName_events (known : Catalog) (finding : Finding) :
    (finding.events conv known).filter Event.isDuplicateName =
      (finding.node? conv).toList.flatMap (·.duplicateRemark known) := by
  cases finding with
  | closed draft =>
    have hBlock : draft.blockRemark.filter Event.isDuplicateName = [] := by
      rw [Draft.blockRemark]
      split <;> rfl
    have hBare : (draft.closedNode conv).bareRemark.filter Event.isDuplicateName = [] := by
      rw [NodeDecl.bareRemark]
      split <;> rfl
    have hDuplicate : ((draft.closedNode conv).duplicateRemark known).filter
        Event.isDuplicateName = (draft.closedNode conv).duplicateRemark known := by
      rw [NodeDecl.duplicateRemark]
      split <;> rfl
    rw [events, closedEvents_eq, List.filter_append, hBlock, List.nil_append, NodeDecl.event,
      List.filter_cons_of_neg (by simp [Event.isDuplicateName]), List.filter_append, hBare,
      hDuplicate]
    simp [node?]
  | skippedLine _ | skippedHeader _ _ | unclosed _ => rfl

theorem filter_isDuplicateName_eventsFrom (known : Catalog) (findings : List Finding) :
    (eventsFrom conv known findings).filter Event.isDuplicateName =
      NodeDecl.duplicateRemarks known (findings.filterMap (·.node? conv)) := by
  induction findings generalizing known with
  | nil => rfl
  | cons finding findings ih =>
    rw [eventsFrom, List.filter_append, filter_isDuplicateName_events, ih, List.filterMap_cons]
    cases finding.node? conv with
    | none => rfl
    | some node => simp [NodeDecl.duplicateRemarks]

end Finding

/-- A catalog is faithful to what was pushed onto it. It lists the pushed nodes in order, none lost
or merged; looking up a name gives the first node of that name, and nothing exactly if there is
none; the index has places in range only, each that of the first node of its name; and the remarks
made so far and the distinct names are together as many as the nodes. The log has just these
remarks. -/
theorem Catalog.ofList_faithful (nodes : List NodeDecl) :
    (ofList nodes).toList = nodes ∧
    (ofList nodes).size = nodes.length ∧
    (∀ name node, (ofList nodes).get? name = some node ↔
      ∃ earlier later, nodes = earlier ++ node :: later ∧
        node.name = name ∧ name ∉ earlier.map NodeDecl.name) ∧
    (∀ name, (ofList nodes).get? name = none ↔ name ∉ nodes.map NodeDecl.name) ∧
    (∀ name place, (ofList nodes).index[name]? = some place ↔
      ∃ hPlace : place < (ofList nodes).nodes.size,
        (ofList nodes).nodes[place].name = name ∧
        ∀ other (hOther : other < place), (ofList nodes).nodes[other].name ≠ name) ∧
    (NodeDecl.duplicateRemarks ∅ nodes).length + (NodeDecl.names nodes).card = nodes.length ∧
    ∀ conv findings, findings.filterMap (Finding.node? conv) = nodes →
      (Event.ofFindings conv findings).filter Event.isDuplicateName =
        NodeDecl.duplicateRemarks ∅ nodes := by
  have hHolds := holds_ofList nodes
  have hCount := holds_empty.length_duplicateRemarks_add_card nodes
  rw [List.nil_append, NodeDecl.names_nil, Finset.card_empty, Nat.zero_add] at hCount
  refine ⟨hHolds.listed, hHolds.size_eq, ?_, ?_, ?_, hCount, ?_⟩
  · exact fun name node => hHolds.get?_eq_some_iff
  · exact fun name => hHolds.get?_eq_none_iff
  · exact fun name place => hHolds.getElem?_index_eq_some_iff
  · rintro conv findings rfl
    exact Finding.filter_isDuplicateName_eventsFrom conv ∅ findings

end NodeScaffold
