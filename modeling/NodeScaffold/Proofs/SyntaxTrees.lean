import NodeScaffold.Code.TokenSearch
import NodeScaffold.Node.Basic

/-! # Trees of nodes

The data that the generated code works on: nodes with a value for each of their fields. The leaves
of a tree are its tokens in the order of the source, those of a list with separators by turns. -/
namespace NodeScaffold
open Code.TokenSearch
set_option autoImplicit false

/-- A token: absent, or present at a place of the source. -/
inductive Leaf where
  | absent
  | present (ordinal : Int)
deriving DecidableEq, Repr

namespace Leaf

def ordinal? : Leaf → Option Int
  | absent => none
  | present ordinal => some ordinal

def ofOrdinal? : Option Int → Leaf
  | none => absent
  | some ordinal => present ordinal

theorem ordinal?_eq_some_iff {leaf : Leaf} {ordinal : Int} :
    leaf.ordinal? = some ordinal ↔ leaf = present ordinal := by
  cases leaf <;> simp [ordinal?]

theorem ordinal?_eq_none_iff {leaf : Leaf} : leaf.ordinal? = none ↔ leaf = absent := by
  cases leaf <;> simp [ordinal?]

theorem ofOrdinal?_inj {ordinal? ordinal?' : Option Int} :
    ofOrdinal? ordinal? = ofOrdinal? ordinal?' ↔ ordinal? = ordinal?' := by
  cases ordinal? <;> cases ordinal?' <;> simp [ofOrdinal?]

end Leaf

mutual

/-- A pointer to a node, with its tag and the values of its fields. -/
inductive SyntaxTree where
  | null
  | node (tag : Text) (values : List NodeValue)

inductive NodeValue where
  | token (leaf : Leaf)
  | nullList
  | tokenList (leaves : List Leaf)
  | nodeList (nodes : List SyntaxTree)
  | separatedList (items : List SyntaxTree) (separators : List Leaf)
  | child (tree : SyntaxTree)

end

/-- Items by turns with what follows each of them; whatever is left over comes at the end. -/
def interleave : List (List Leaf) → List Leaf → List Leaf
  | [], separators => separators
  | item :: items, [] => item ++ interleave items []
  | item :: items, separator :: separators => item ++ separator :: interleave items separators

mutual

def SyntaxTree.leaves : SyntaxTree → List Leaf
  | .null => []
  | .node _ values => values.flatMap NodeValue.leaves

def NodeValue.leaves : NodeValue → List Leaf
  | .token leaf => [leaf]
  | .nullList => []
  | .tokenList leaves => leaves
  | .nodeList nodes => nodes.flatMap SyntaxTree.leaves
  | .separatedList items separators => interleave (items.map SyntaxTree.leaves) separators
  | .child tree => tree.leaves

end

def NodeValue.ordinals (value : NodeValue) : List Int := value.leaves.filterMap Leaf.ordinal?

namespace NodeValue

def children : NodeValue → List SyntaxTree
  | token _ | nullList | tokenList _ => []
  | nodeList nodes => nodes
  | separatedList items _ => items
  | child tree => [tree]

/-- Whether a field of the given kind can have the value. No list has more separators than items. -/
def fits : FieldKind → NodeValue → Bool
  | .token, token _ => true
  | .tokenList, nullList | .tokenList, tokenList _ => true
  | .nodeList, nullList | .nodeList, nodeList _ => true
  | .separatedList, nullList => true
  | .separatedList, separatedList items separators => separators.length ≤ items.length
  | .node, child _ => true
  | _, _ => false

theorem sizeOf_lt_of_mem_children {value : NodeValue} {tree : SyntaxTree}
    (h : tree ∈ value.children) : sizeOf tree < sizeOf value := by
  cases value with
  | token | nullList | tokenList => cases h
  | nodeList nodes =>
    have hTree : sizeOf tree < sizeOf nodes := List.sizeOf_lt_of_mem h
    simp only [nodeList.sizeOf_spec]
    omega
  | separatedList items separators =>
    have hTree : sizeOf tree < sizeOf items := List.sizeOf_lt_of_mem h
    simp only [separatedList.sizeOf_spec]
    omega
  | child tree =>
    cases List.mem_singleton.mp h
    simp

end NodeValue

namespace SyntaxTree

def ordinals (tree : SyntaxTree) : List Int := tree.leaves.filterMap Leaf.ordinal?

def values : SyntaxTree → List NodeValue
  | null => []
  | node _ values => values

def children (tree : SyntaxTree) : List SyntaxTree := tree.values.flatMap NodeValue.children

theorem sizeOf_lt_of_mem_children {tree part : SyntaxTree} (h : part ∈ tree.children) :
    sizeOf part < sizeOf tree := by
  obtain ⟨value, hValue, hPart⟩ := List.mem_flatMap.mp h
  have hLess := NodeValue.sizeOf_lt_of_mem_children hPart
  cases tree with
  | null => cases hValue
  | node tag values =>
    have hList : sizeOf value < sizeOf values := List.sizeOf_lt_of_mem hValue
    simp only [node.sizeOf_spec]
    omega

def parts (tree : SyntaxTree) : List SyntaxTree :=
  tree :: tree.children.attach.flatMap fun part => part.1.parts
termination_by sizeOf tree
decreasing_by exact sizeOf_lt_of_mem_children part.2

theorem parts_eq (tree : SyntaxTree) : tree.parts = tree :: tree.children.flatMap parts := by
  rw [parts]
  simp

def size (tree : SyntaxTree) : Nat := tree.parts.length

theorem size_lt_of_mem_children {tree part : SyntaxTree} (h : part ∈ tree.children) :
    part.size < tree.size := by
  have hParts : part.parts.Sublist (tree.children.flatMap parts) :=
    List.sublist_flatten_of_mem (List.mem_map_of_mem h)
  rw [size, size, parts_eq tree, List.length_cons]
  exact Nat.lt_succ_of_le hParts.length_le

/-- What holds of a tree if it holds of all its children holds of every tree. -/
theorem induction {P : SyntaxTree → Prop}
    (h : ∀ tree, (∀ part ∈ tree.children, P part) → P tree) (tree : SyntaxTree) : P tree :=
  h tree fun part _ => induction h part
termination_by sizeOf tree
decreasing_by exact sizeOf_lt_of_mem_children ‹_›

theorem self_mem_parts (tree : SyntaxTree) : tree ∈ tree.parts := by
  rw [parts_eq]
  exact List.mem_cons_self

theorem mem_parts_of_mem_children {tree part child : SyntaxTree} (h : part ∈ tree.parts)
    (hChild : child ∈ part.children) : child ∈ tree.parts := by
  induction tree using induction with
  | _ tree ih =>
    rw [parts_eq] at h ⊢
    apply List.mem_cons_of_mem
    rw [List.mem_flatMap]
    rcases List.mem_cons.mp h with rfl | h
    · exact ⟨child, hChild, self_mem_parts child⟩
    · obtain ⟨between, hBetween, hPart⟩ := List.mem_flatMap.mp h
      exact ⟨between, hBetween, ih between hBetween hPart⟩

theorem ordinals_eq (tree : SyntaxTree) :
    tree.ordinals = tree.values.flatMap NodeValue.ordinals := by
  cases tree with
  | null =>
    rw [ordinals, leaves]
    rfl
  | node tag values =>
    rw [ordinals, leaves, List.filterMap_flatMap]
    rfl

end SyntaxTree

/-! ## Leaves of lists -/

theorem sublist_interleave {item : List Leaf} {items : List (List Leaf)} (h : item ∈ items)
    (separators : List Leaf) : item.Sublist (interleave items separators) := by
  induction items generalizing separators with
  | nil => cases h
  | cons first items ih =>
    cases separators with
    | nil =>
      rcases List.mem_cons.mp h with rfl | h
      · exact List.sublist_append_left _ _
      · exact (ih h []).trans (List.sublist_append_right _ _)
    | cons separator separators =>
      rcases List.mem_cons.mp h with rfl | h
      · exact List.sublist_append_left _ _
      · exact ((ih h separators).cons separator).trans (List.sublist_append_right _ _)

theorem separators_sublist_interleave (items : List (List Leaf)) (separators : List Leaf) :
    separators.Sublist (interleave items separators) := by
  induction items generalizing separators with
  | nil => exact List.Sublist.refl separators
  | cons first items ih =>
    cases separators with
    | nil => exact List.nil_sublist _
    | cons separator separators =>
      exact ((ih separators).cons_cons separator).trans (List.sublist_append_right _ _)

/-- How a list with separators ends: with its last item, or with the separator behind it. -/
theorem interleave_concat {items : List (List Leaf)} {separators : List Leaf} (item : List Leaf)
    (h : separators.length ≤ items.length + 1) :
    interleave (items ++ [item]) separators = interleave items separators ++ item ∨
    ∃ earlier separator, separators = earlier ++ [separator] ∧
      interleave (items ++ [item]) separators =
        interleave items earlier ++ item ++ [separator] := by
  induction items generalizing separators with
  | nil =>
    cases separators with
    | nil => exact .inl (by simp [interleave])
    | cons separator separators =>
      have hNil : separators = [] := List.length_eq_zero_iff.mp (by simpa using h)
      exact .inr ⟨[], separator, by simp [hNil], by simp [interleave, hNil]⟩
  | cons first items ih =>
    cases separators with
    | nil =>
      obtain hEnd | ⟨earlier, separator, hSeparators, -⟩ := @ih [] (Nat.zero_le _)
      · exact .inl (by simp [interleave, hEnd])
      · simp at hSeparators
    | cons separator separators =>
      obtain hEnd | ⟨earlier, last, rfl, hEnd⟩ := ih (by simpa using h)
      · exact .inl (by simp [interleave, hEnd])
      · exact .inr ⟨separator :: earlier, last, rfl, by simp [interleave, hEnd]⟩

namespace NodeValue

theorem leaves_sublist_of_mem_children {value : NodeValue} {tree : SyntaxTree}
    (h : tree ∈ value.children) : tree.leaves.Sublist value.leaves := by
  cases value with
  | token | nullList | tokenList => cases h
  | nodeList nodes =>
    rw [leaves]
    exact List.sublist_flatten_of_mem (List.mem_map_of_mem h)
  | separatedList items separators =>
    rw [leaves]
    exact sublist_interleave (List.mem_map_of_mem h) separators
  | child tree =>
    cases List.mem_singleton.mp h
    have hLeaves : (child tree).leaves = tree.leaves := by rw [leaves]
    exact hLeaves ▸ List.Sublist.refl _

theorem ordinals_sublist_of_mem_children {value : NodeValue} {tree : SyntaxTree}
    (h : tree ∈ value.children) : tree.ordinals.Sublist value.ordinals :=
  (leaves_sublist_of_mem_children h).filterMap _

end NodeValue

namespace SyntaxTree

theorem ordinals_sublist_of_mem_children {tree part : SyntaxTree} (h : part ∈ tree.children) :
    part.ordinals.Sublist tree.ordinals := by
  obtain ⟨value, hValue, hPart⟩ := List.mem_flatMap.mp h
  rw [ordinals_eq tree]
  exact (NodeValue.ordinals_sublist_of_mem_children hPart).trans
    (List.sublist_flatten_of_mem (List.mem_map_of_mem hValue))

theorem ordinals_sublist_of_mem_parts {tree part : SyntaxTree} (h : part ∈ tree.parts) :
    part.ordinals.Sublist tree.ordinals := by
  induction tree using induction with
  | _ tree ih =>
    rw [parts_eq] at h
    rcases List.mem_cons.mp h with rfl | h
    · exact List.Sublist.refl _
    · obtain ⟨between, hBetween, hPart⟩ := List.mem_flatMap.mp h
      exact (ih between hBetween hPart).trans (ordinals_sublist_of_mem_children hBetween)

end SyntaxTree

end NodeScaffold
