import Mathlib.Data.List.Forall2
import NodeScaffold.Proofs.CheckAnswers

/-! # Which token a search finds

The search in a node ends at the first check that returns. It misses the tokens behind a field that
has none but whose check returns, and those that the check of their own field does not see. In every
other node it finds the token at the edge, if it does so in the children. -/
namespace NodeScaffold
open Code.TokenSearch
set_option autoImplicit false

/-! ## The search in a node with an arm -/

/-- A node that a schema declares, with a value that fits for each field. -/
def SyntaxTree.Fits (conv : Conventions) (nodes : List NodeDecl) : SyntaxTree → Prop
  | .null => True
  | .node tag values => ∃ decl ∈ nodes, tag ∈ decl.tags ∧
    List.Forall₂ (fun field value => value.fits (field.kind conv)) decl.fields values

section
variable {conv : Conventions} {nodes : List NodeDecl} {nowhere : Int} {edge : Edge}
  {look : Edge → SyntaxTree → Option Leaf} {found : SyntaxTree → Leaf}

theorem find?_tags_eq (hTags : (nodes.flatMap NodeDecl.tags).Nodup) {decl : NodeDecl}
    (hDecl : decl ∈ nodes) {tag : Text} (hTag : tag ∈ decl.tags) :
    nodes.find? (fun decl => tag ∈ decl.tags) = some decl := by
  induction nodes with
  | nil => cases hDecl
  | cons head nodes ih =>
    rw [List.flatMap_cons, List.nodup_append] at hTags
    obtain ⟨-, hRest, hApart⟩ := hTags
    rcases List.mem_cons.mp hDecl with rfl | hDecl
    · exact List.find?_cons_of_pos (by simpa using hTag)
    · have hOther : tag ∉ head.tags := fun hHead =>
        hApart tag hHead tag (List.mem_flatMap.mpr ⟨decl, hDecl, hTag⟩) rfl
      rw [List.find?_cons_of_neg (by simpa using hOther)]
      exact ih hRest hDecl

theorem Code.TokenSearch.Check.runAll_zip {fields : List FieldDecl} {values : List NodeValue}
    (h : List.Forall₂ (fun field value => value.fits (field.kind conv)) fields values)
    (hLook : ∀ value ∈ values, ∀ part ∈ value.children, look edge part = some (found part)) :
    runAll look nowhere ((fields.map fun field => Check.of edge (field.kind conv)).zip values) =
      some ((values.findSome? (answer? nowhere edge found)).getD .absent) := by
  induction h with
  | nil => rfl
  | @cons field value fields values hFits _ ih =>
    rw [List.forall_mem_cons] at hLook
    rw [List.map_cons, List.zip_cons_cons, runAll, run_of hFits hLook.1, Option.bind_some,
      List.findSome?_cons]
    cases answer? nowhere edge found value with
    | none => exact ih hLook.2
    | some leaf => rfl

theorem SyntaxTree.Fits.forall₂_ordered {fields : List FieldDecl} {values : List NodeValue}
    (edge : Edge)
    (h : List.Forall₂ (fun field value => value.fits (field.kind conv)) fields values) :
    List.Forall₂ (fun field value => value.fits (field.kind conv))
      (edge.order fields) (edge.ordered values) := by
  cases edge with
  | first => exact h
  | last => exact List.forall₂_reverse_iff.mpr h

/-- The search in a node, given what is found in its children. -/
theorem Code.TokenSearch.search_eq (hTags : (nodes.flatMap NodeDecl.tags).Nodup)
    {tree : SyntaxTree} (hFits : tree.Fits conv nodes)
    (hFound : ∀ part ∈ tree.children, search conv nowhere nodes edge part = some (found part)) :
    search conv nowhere nodes edge tree =
      some (((edge.ordered tree.values).findSome? (answer? nowhere edge found)).getD .absent) := by
  cases tree with
  | null =>
    rw [search]
    cases edge <;> rfl
  | node tag values =>
    obtain ⟨decl, hDecl, hTag, hValues⟩ := hFits
    rw [search, find?_tags_eq hTags hDecl hTag]
    apply Check.runAll_zip (SyntaxTree.Fits.forall₂_ordered edge hValues)
    intro value hValue part hPart
    have hChild : part ∈ (SyntaxTree.node tag values).children :=
      List.mem_flatMap.mpr ⟨value, (edge.ordered_perm values).mem_iff.mp hValue, hPart⟩
    rw [dif_pos (SyntaxTree.size_lt_of_mem_children hChild)]
    exact hFound part hChild

end

/-! ## Values one after the other -/

/-- Whether the search through values finds the token at the edge: nothing stops it ahead of the
first value with tokens, and that value shows it. -/
def Code.TokenSearch.isClear (edge : Edge) : List NodeValue → Bool
  | [] => true
  | value :: values =>
    if value.ordinals ≠ [] then value.shows edge
    else if value.stops edge then values.all (·.ordinals = [])
    else isClear edge values

section
variable {nowhere : Int} {edge : Edge} {found : SyntaxTree → Leaf} {values : List NodeValue}

theorem mem_ordinals_of_findSome? (h : ∀ value ∈ values, value.IsKnown nowhere edge found)
    {ordinal : Int}
    (hFind : values.findSome? (answer? nowhere edge found) = some (.present ordinal)) :
    ordinal ∈ values.flatMap NodeValue.ordinals := by
  obtain ⟨value, hValue, hAnswer⟩ := List.exists_of_findSome?_eq_some hFind
  exact List.mem_flatMap.mpr ⟨value, hValue, (h value hValue).mem_ordinals_of_answer? hAnswer⟩

theorem ofOrdinal?_findSome?_eq_absent_iff (edge : Edge) (values : List NodeValue) :
    Leaf.ofOrdinal? (values.findSome? fun value => edge.pick value.ordinals) = .absent ↔
      values.all (·.ordinals = []) := by
  rw [← Leaf.ofOrdinal?, Leaf.ofOrdinal?_inj, List.findSome?_eq_none_iff]
  simp [Edge.pick_eq_none_iff]

theorem findSome?_answer?_eq_iff (h : ∀ value ∈ values, value.IsKnown nowhere edge found)
    (hNodup : (values.flatMap NodeValue.ordinals).Nodup) :
    (values.findSome? (answer? nowhere edge found)).getD .absent =
        .ofOrdinal? (values.findSome? fun value => edge.pick value.ordinals) ↔
      isClear edge values := by
  -- The induction follows the search: each value either ends it or leaves it to those behind.
  induction values with
  | nil => simp [isClear, Leaf.ofOrdinal?]
  | cons value values ih =>
    rw [List.forall_mem_cons] at h
    rw [List.flatMap_cons, List.nodup_append] at hNodup
    obtain ⟨-, hRest, hApart⟩ := hNodup
    by_cases hNil : value.ordinals = []
    · have hPick : edge.pick value.ordinals = none := Edge.pick_eq_none_iff.mpr hNil
      rw [isClear, if_neg (not_not_intro hNil), List.findSome?_cons, List.findSome?_cons, hPick,
        h.1.answer?_of_ordinals_eq_nil hNil]
      cases value.stops edge with
      | false => simpa using ih h.2 hRest
      | true => exact eq_comm.trans (ofOrdinal?_findSome?_eq_absent_iff edge values)
    · obtain ⟨ordinal, hMem, hPick⟩ := edge.exists_pick_eq hNil
      rw [isClear, if_pos hNil, ← h.1.answer?_eq_iff_shows hPick, List.findSome?_cons,
        List.findSome?_cons, hPick]
      cases hAnswer : answer? nowhere edge found value with
      | some leaf => simp [Leaf.ofOrdinal?]
      | none =>
        -- What follows cannot make up for it, as no token stands in two values.
        rw [Leaf.ofOrdinal?]
        constructor
        · intro hLater
          have hBehind := mem_ordinals_of_findSome? h.2 (Leaf.eq_some_of_getD_eq hLater)
          exact absurd rfl (hApart ordinal hMem ordinal hBehind)
        · intro hNone
          cases hNone

end

/-! ## Trees -/

namespace SyntaxTree

def isClear (edge : Edge) (tree : SyntaxTree) : Bool :=
  Code.TokenSearch.isClear edge (edge.ordered tree.values)

/-- A tree of declared nodes whose tokens stand in the order of the source, none of them at the
place of an absent token or before it. -/
structure Conforms (conv : Conventions) (nodes : List NodeDecl) (nowhere : Int)
    (tree : SyntaxTree) : Prop where
  fits : ∀ part ∈ tree.parts, part.Fits conv nodes
  ordered : tree.ordinals.Pairwise (· < ·)
  above : ∀ ordinal ∈ tree.ordinals, nowhere < ordinal

theorem forall_parts_iff {P Q : SyntaxTree → Prop} {tree : SyntaxTree}
    (h : ∀ part ∈ tree.parts, (∀ child ∈ part.children, P child) → (P part ↔ Q part)) :
    (∀ part ∈ tree.parts, P part) ↔ ∀ part ∈ tree.parts, Q part := by
  constructor
  · intro hP part hPart
    apply (h part hPart _).mp (hP part hPart)
    intro child hChild
    exact hP child (mem_parts_of_mem_children hPart hChild)
  · intro hQ part hPart
    induction part using induction with
    | _ part ih =>
      apply (h part hPart _).mpr (hQ part hPart)
      intro child hChild
      exact ih child hChild (mem_parts_of_mem_children hPart hChild)

theorem ordinals_sublist_of_mem_values {tree : SyntaxTree} {value : NodeValue}
    (h : value ∈ tree.values) : value.ordinals.Sublist tree.ordinals := by
  rw [ordinals_eq tree]
  exact List.sublist_flatten_of_mem (List.mem_map_of_mem h)

theorem Fits.exists_fits {conv : Conventions} {nodes : List NodeDecl} {tree : SyntaxTree}
    (h : tree.Fits conv nodes) {value : NodeValue} (hValue : value ∈ tree.values) :
    ∃ kind, value.fits kind := by
  cases tree with
  | null => cases hValue
  | node tag values =>
    obtain ⟨decl, -, -, hFields⟩ := h
    rw [SyntaxTree.values] at hValue
    generalize decl.fields = fields at hFields
    induction hFields with
    | nil => cases hValue
    | @cons field _ _ _ hFits _ ih =>
      rcases List.mem_cons.mp hValue with rfl | hValue
      · exact ⟨field.kind conv, hFits⟩
      · exact ih hValue

end SyntaxTree

section
variable {conv : Conventions} {nodes : List NodeDecl} {nowhere : Int} {edge : Edge}
  {tree : SyntaxTree}

/-- The search in a conforming tree has a result at every node. -/
theorem SyntaxTree.Conforms.exists_search_eq (hTags : (nodes.flatMap NodeDecl.tags).Nodup)
    (h : tree.Conforms conv nodes nowhere) {part : SyntaxTree} (hPart : part ∈ tree.parts) :
    ∃ leaf, search conv nowhere nodes edge part = some leaf := by
  induction part using SyntaxTree.induction with
  | _ part ih =>
    have hFound : ∀ child ∈ part.children, search conv nowhere nodes edge child =
        some ((search conv nowhere nodes edge child).getD .absent) := by
      intro child hChild
      obtain ⟨leaf, hLeaf⟩ := ih child hChild (mem_parts_of_mem_children hPart hChild)
      rw [hLeaf, Option.getD_some]
    exact ⟨_, search_eq hTags (h.fits part hPart) hFound⟩

/-- One node: if the search is right in its children, then it is right in the node if and only if
its values are clear. -/
theorem SyntaxTree.search_eq_iff_isClear (hTags : (nodes.flatMap NodeDecl.tags).Nodup)
    (hFits : tree.Fits conv nodes) (hOrder : tree.ordinals.Pairwise (· < ·))
    (hAbove : ∀ ordinal ∈ tree.ordinals, nowhere < ordinal)
    (hChildren : ∀ child ∈ tree.children,
      search conv nowhere nodes edge child = some (.ofOrdinal? (edge.pick child.ordinals))) :
    search conv nowhere nodes edge tree = some (.ofOrdinal? (edge.pick tree.ordinals)) ↔
      tree.isClear edge := by
  have hPerm := edge.ordered_perm tree.values
  rw [search_eq hTags hFits hChildren, Option.some.injEq, tree.ordinals_eq, Edge.pick_flatMap]
  apply findSome?_answer?_eq_iff
  · intro value hValue
    have hMem : value ∈ tree.values := hPerm.mem_iff.mp hValue
    have hSublist := ordinals_sublist_of_mem_values hMem
    exact {
      ordered := hOrder.sublist hSublist
      above := fun ordinal hOrdinal => hAbove ordinal (hSublist.subset hOrdinal)
      fits := hFits.exists_fits hMem
      found_eq := fun _ _ => rfl }
  · have hNodup : tree.ordinals.Nodup := hOrder.imp Int.ne_of_lt
    rw [tree.ordinals_eq] at hNodup
    exact (hPerm.flatMap_right NodeValue.ordinals).nodup_iff.mpr hNodup

theorem SyntaxTree.exists_isBoundary_iff (hOrder : tree.ordinals.Pairwise (· < ·)) :
    (∃ leaf, search conv nowhere nodes edge tree = some leaf ∧
      IsBoundary edge tree.ordinals leaf) ↔
    search conv nowhere nodes edge tree = some (.ofOrdinal? (edge.pick tree.ordinals)) := by
  simp only [isBoundary_iff hOrder]
  constructor
  · rintro ⟨leaf, hSearch, rfl⟩
    exact hSearch
  · intro hSearch
    exact ⟨_, hSearch, rfl⟩

end

/-- In a conforming tree, the search has a result at every node, and it is right at all of them if
and only if all of them are clear. -/
theorem search_isBoundary_iff_isClear (conv : Conventions) (nodes : List NodeDecl) (nowhere : Int)
    (hTags : (nodes.flatMap NodeDecl.tags).Nodup) (edge : Edge) (tree : SyntaxTree)
    (h : tree.Conforms conv nodes nowhere) :
    (∀ part ∈ tree.parts, ∃ leaf, search conv nowhere nodes edge part = some leaf) ∧
    ((∀ part ∈ tree.parts, ∃ leaf, search conv nowhere nodes edge part = some leaf ∧
        IsBoundary edge part.ordinals leaf) ↔
      ∀ part ∈ tree.parts, part.isClear edge) := by
  constructor
  · intro part hPart
    exact h.exists_search_eq hTags hPart
  · apply SyntaxTree.forall_parts_iff
    intro part hPart hChildren
    have hSublist := SyntaxTree.ordinals_sublist_of_mem_parts hPart
    have hOrder := h.ordered.sublist hSublist
    rw [SyntaxTree.exists_isBoundary_iff hOrder]
    apply SyntaxTree.search_eq_iff_isClear hTags (h.fits part hPart) hOrder
    · intro ordinal hOrdinal
      exact h.above ordinal (hSublist.subset hOrdinal)
    · intro child hChild
      have hChildOrder := hOrder.sublist (SyntaxTree.ordinals_sublist_of_mem_children hChild)
      exact (SyntaxTree.exists_isBoundary_iff hChildOrder).mp (hChildren child hChild)

/-! ## Expressions

Expressions are holes without fields, names and calls. A statement returns one of them. -/

namespace ExprTree

def nodes : List NodeDecl := [
  ⟨"HoleSyntax", some "ExprSyntax", [], ["Hole"]⟩,
  ⟨"NameSyntax", some "ExprSyntax", [⟨"word", "SyntaxToken"⟩], ["Name"]⟩,
  ⟨"CallSyntax", some "ExprSyntax", [⟨"callee", "ExprSyntax*"⟩,
    ⟨"arguments", "SeparatedSyntaxList<ExprSyntax>*"⟩], ["Call"]⟩,
  ⟨"ReturnSyntax", some "SyntaxBase", [⟨"value", "ExprSyntax*"⟩, ⟨"semicolon", "SyntaxToken"⟩],
    ["Return"]⟩]

theorem nodup_tags : (nodes.flatMap NodeDecl.tags).Nodup := by
  with_unfolding_all decide

theorem kinds :
    FieldKind.ofType .standard "SyntaxToken" = .token ∧
    FieldKind.ofType .standard "ExprSyntax*" = .node ∧
    FieldKind.ofType .standard "SeparatedSyntaxList<ExprSyntax>*" = .separatedList := by
  with_unfolding_all decide

def name (ordinal : Int) : SyntaxTree := .node "Name" [.token (.present ordinal)]

theorem fits_name (ordinal : Int) : (name ordinal).Fits .standard nodes := by
  refine ⟨_, List.mem_cons_of_mem _ List.mem_cons_self, List.mem_cons_self, .cons ?_ .nil⟩
  rw [FieldDecl.kind, kinds.1]
  rfl

def call : SyntaxTree :=
  .node "Call" [.child (name 0), .separatedList [name 1, name 3] [.present 2]]

theorem fits_call : call.Fits .standard nodes := by
  refine ⟨_, List.mem_cons_of_mem _ (List.mem_cons_of_mem _ List.mem_cons_self),
    List.mem_cons_self, .cons ?_ (.cons ?_ .nil)⟩
  · rw [FieldDecl.kind, kinds.2.1]
    rfl
  · rw [FieldDecl.kind, kinds.2.2]
    rfl

theorem parts_name (ordinal : Int) : (name ordinal).parts = [name ordinal] := by
  rw [SyntaxTree.parts_eq]
  rfl

theorem parts_call : call.parts = [call, name 0, name 1, name 3] := by
  rw [SyntaxTree.parts_eq]
  simp [call, SyntaxTree.children, SyntaxTree.values, NodeValue.children, parts_name]

theorem ordinals_call : call.ordinals = [0, 1, 2, 3] := by
  simp [call, name, SyntaxTree.ordinals, SyntaxTree.leaves, NodeValue.leaves, interleave,
    Leaf.ordinal?]

theorem conforms_call : call.Conforms .standard nodes (-1) := by
  constructor
  · rw [parts_call]
    simpa using ⟨fits_call, fits_name 0, fits_name 1, fits_name 3⟩
  · simp [ordinals_call]
  · simp [ordinals_call]

theorem isClear_name (edge : Edge) (ordinal : Int) : (name ordinal).isClear edge := by
  cases edge <;> simp [SyntaxTree.isClear, name, SyntaxTree.values, Edge.ordered, isClear,
    Leaf.ordinal?, NodeValue.shows]

theorem isClear_call : call.isClear .last := by
  have hArguments :
      (NodeValue.separatedList [name 1, name 3] [.present 2]).ordinals = [1, 2, 3] := by
    simp [NodeValue.ordinals, NodeValue.leaves, interleave, name, SyntaxTree.leaves, Leaf.ordinal?]
  have hLast : (name 3).ordinals = [3] := by
    simp [SyntaxTree.ordinals, name, SyntaxTree.leaves, NodeValue.leaves, Leaf.ordinal?]
  simp [SyntaxTree.isClear, call, SyntaxTree.values, Edge.ordered, isClear, hArguments,
    NodeValue.shows, Edge.pick, hLast]

/-- The last token of a call is that of its last argument. -/
theorem search_last_call : call.Conforms .standard nodes (-1) ∧
    search .standard (-1) nodes .last call = some (.present 3) := by
  have hClear : ∀ part ∈ call.parts, part.isClear .last := by
    rw [parts_call]
    simpa using ⟨isClear_call, isClear_name .last 0, isClear_name .last 1, isClear_name .last 3⟩
  have hSearch :=
    search_isBoundary_iff_isClear .standard nodes (-1) nodup_tags .last call conforms_call
  obtain ⟨leaf, hLeaf, hBoundary⟩ := hSearch.2.mpr hClear call call.self_mem_parts
  rw [isBoundary_iff conforms_call.ordered, ordinals_call] at hBoundary
  rw [hLeaf, hBoundary]
  exact ⟨conforms_call, rfl⟩

def hole : SyntaxTree := .node "Hole" []

/-- A statement with nothing but its semicolon. -/
def returnHole : SyntaxTree := .node "Return" [.child hole, .token (.present 0)]

theorem fits_hole : hole.Fits .standard nodes :=
  ⟨_, List.mem_cons_self, List.mem_cons_self, .nil⟩

theorem fits_returnHole : returnHole.Fits .standard nodes := by
  refine ⟨_, List.mem_cons_of_mem _ (List.mem_cons_of_mem _ (List.mem_cons_of_mem _
    List.mem_cons_self)), List.mem_cons_self, .cons ?_ (.cons ?_ .nil)⟩
  · rw [FieldDecl.kind, kinds.2.1]
    rfl
  · rw [FieldDecl.kind, kinds.1]
    rfl

theorem ordinals_returnHole : returnHole.ordinals = [0] := by
  simp [returnHole, hole, SyntaxTree.ordinals, SyntaxTree.leaves, NodeValue.leaves, Leaf.ordinal?]

theorem conforms_returnHole : returnHole.Conforms .standard nodes (-1) := by
  have hParts : returnHole.parts = [returnHole, hole] := by
    rw [SyntaxTree.parts_eq]
    simp [returnHole, hole, SyntaxTree.children, SyntaxTree.values, NodeValue.children,
      SyntaxTree.parts_eq]
  constructor
  · rw [hParts]
    simpa using ⟨fits_returnHole, fits_hole⟩
  · simp [ordinals_returnHole]
  · simp [ordinals_returnHole]

/-- The search for the first token ends at the hole and misses the semicolon. -/
theorem search_first_returnHole : returnHole.Conforms .standard nodes (-1) ∧
    search .standard (-1) nodes .first returnHole = some .absent ∧
    ¬IsBoundary .first returnHole.ordinals .absent := by
  have hHole : search .standard (-1) nodes .first hole = some .absent :=
    @search_eq _ _ _ _ (fun _ => .absent) nodup_tags _ fits_hole nofun
  refine ⟨conforms_returnHole, ?_, ?_⟩
  · apply @search_eq _ _ _ _ (fun _ => .absent) nodup_tags _ fits_returnHole
    intro part hPart
    rw [List.mem_singleton.mp hPart, hHole]
  · simp [IsBoundary, ordinals_returnHole]

end ExprTree

end NodeScaffold
