import NodeScaffold.Proofs.CheckMeaning

/-! # The answer of one check

The check of a field with a list or a node returns whatever it finds at the edge of the value, also
if that is no token. So it may return although the value has no token, and it may miss the token at
the edge of a value that has some. -/
namespace NodeScaffold
open Code.TokenSearch
set_option autoImplicit false

namespace Code.TokenSearch.Edge
variable {α β : Type} {edge : Edge} {items : List α}

theorem pick_eq_head?_ordered (edge : Edge) (items : List α) :
    edge.pick items = (edge.ordered items).head? := by
  cases edge with
  | first => rfl
  | last => exact List.getLast?_eq_head?_reverse

theorem ordered_perm (edge : Edge) (items : List α) : (edge.ordered items).Perm items := by
  cases edge with
  | first => exact List.Perm.refl items
  | last => exact List.reverse_perm items

theorem pick_eq_none_iff : edge.pick items = none ↔ items = [] := by
  cases edge with
  | first => exact List.head?_eq_none_iff
  | last => exact List.getLast?_eq_none_iff

theorem mem_of_pick_eq {item : α} (h : edge.pick items = some item) : item ∈ items := by
  cases edge with
  | first => exact List.mem_of_mem_head? h
  | last => exact List.mem_of_mem_getLast? h

theorem pick_flatMap (f : α → List β) : edge.pick (items.flatMap f) =
    (edge.ordered items).findSome? fun item => edge.pick (f item) := by
  cases edge with
  | first => exact List.head?_flatMap
  | last => exact List.getLast?_flatMap

theorem pick_filterMap (f : α → Option β) :
    edge.pick (items.filterMap f) = (edge.ordered items).findSome? f := by
  cases edge with
  | first => exact List.head?_filterMap
  | last => exact List.getLast?_filterMap

/-- If the item at the edge yields something, then that is what the list yields. -/
theorem findSome?_ordered {f : α → Option β} {item : α} {result : β}
    (h : edge.pick items = some item) (hf : f item = some result) :
    (edge.ordered items).findSome? f = some result := by
  rw [pick_eq_head?_ordered, List.head?_eq_some_iff] at h
  obtain ⟨rest, hRest⟩ := h
  rw [hRest, List.findSome?_cons_of_isSome (by rw [hf]; rfl), hf]

end Code.TokenSearch.Edge

/-! ## The token at an edge -/

/-- Whether a place comes no later than another one, seen from the given edge. -/
def Code.TokenSearch.Edge.IsAhead (edge : Edge) (ordinal ordinal' : Int) : Prop :=
  match edge with
  | .first => ordinal ≤ ordinal'
  | .last => ordinal' ≤ ordinal

/-- The token at an edge of the given places: one of them that is ahead of all others, and the
absent token only if there are none. -/
def IsBoundary (edge : Edge) (ordinals : List Int) : Leaf → Prop
  | .absent => ordinals = []
  | .present ordinal => ordinal ∈ ordinals ∧ ∀ other ∈ ordinals, edge.IsAhead ordinal other

section
variable {edge : Edge} {ordinals : List Int} {ordinal : Int} {leaf : Leaf}

theorem isAhead_of_pick_eq (hOrder : ordinals.Pairwise (· < ·))
    (h : edge.pick ordinals = some ordinal) : ∀ other ∈ ordinals, edge.IsAhead ordinal other := by
  cases edge with
  | first =>
    obtain ⟨rest, rfl⟩ := List.head?_eq_some_iff.mp h
    intro other hOther
    rcases List.mem_cons.mp hOther with rfl | hOther
    · exact Int.le_refl other
    · exact Int.le_of_lt ((List.pairwise_cons.mp hOrder).1 other hOther)
  | last =>
    obtain ⟨rest, rfl⟩ := List.getLast?_eq_some_iff.mp h
    intro other hOther
    rcases List.mem_append.mp hOther with hOther | hOther
    · apply Int.le_of_lt
      exact (List.pairwise_append.mp hOrder).2.2 other hOther ordinal List.mem_cons_self
    · rw [List.mem_singleton.mp hOther]
      exact Int.le_refl ordinal

theorem isBoundary_iff (hOrder : ordinals.Pairwise (· < ·)) :
    IsBoundary edge ordinals leaf ↔ leaf = .ofOrdinal? (edge.pick ordinals) := by
  cases hPick : edge.pick ordinals with
  | none =>
    rw [Edge.pick_eq_none_iff] at hPick
    cases leaf <;> simp [IsBoundary, Leaf.ofOrdinal?, hPick]
  | some ordinal =>
    have hMem := Edge.mem_of_pick_eq hPick
    have hAhead := isAhead_of_pick_eq hOrder hPick
    cases leaf with
    | absent => simp [IsBoundary, Leaf.ofOrdinal?, List.ne_nil_of_mem hMem]
    | present ordinal' =>
      rw [IsBoundary, Leaf.ofOrdinal?, Leaf.present.injEq]
      constructor
      · rintro ⟨hMem', hAhead'⟩
        have hLeft := hAhead ordinal' hMem'
        have hRight := hAhead' ordinal hMem
        cases edge with
        | first => exact Int.le_antisymm hRight hLeft
        | last => exact Int.le_antisymm hLeft hRight
      · rintro rfl
        exact ⟨hMem, hAhead⟩

end

namespace Code.TokenSearch.Leaf
variable {nowhere ordinal : Int} {leaf leaf' : Leaf}

theorem eq_some_of_getD_eq {leaf? : Option Leaf} (h : leaf?.getD .absent = .present ordinal) :
    leaf? = some (.present ordinal) := by
  cases leaf? with
  | none => cases h
  | some leaf => exact congrArg some h

theorem ite_eq_some_present_iff :
    (if leaf = .absent then none else some leaf) = some (.present ordinal) ↔
      leaf = .present ordinal := by
  cases leaf <;> simp

theorem later_eq_or (nowhere : Int) (leaf leaf' : Leaf) :
    later nowhere leaf leaf' = leaf ∨ later nowhere leaf leaf' = leaf' := by
  rw [later]
  split
  · exact .inl rfl
  · exact .inr rfl

/-- The later one of two tokens, if none of them comes behind the given place. -/
theorem later_eq_present_iff (hAbove : nowhere < ordinal)
    (h : ∀ other ∈ leaf.ordinal?, other ≤ ordinal)
    (h' : ∀ other ∈ leaf'.ordinal?, other ≤ ordinal) :
    later nowhere leaf leaf' = .present ordinal ↔
      leaf = .present ordinal ∨ leaf' = .present ordinal := by
  constructor
  · intro hLater
    rcases later_eq_or nowhere leaf leaf' with hLeaf | hLeaf
    · exact .inl (hLeaf.symm.trans hLater)
    · exact .inr (hLeaf.symm.trans hLater)
  · rintro (rfl | rfl)
    · cases leaf' with
      | absent => exact if_pos (decide_eq_true hAbove)
      | present other =>
        rcases Int.lt_or_eq_of_le (h' other rfl) with hLess | rfl
        · exact if_pos (decide_eq_true hLess)
        · rw [later, ite_self]
    · rw [later, if_neg]
      intro hBehind
      cases leaf with
      | absent => exact Int.not_lt.mpr (Int.le_of_lt hAbove) (of_decide_eq_true hBehind)
      | present other => exact Int.not_lt.mpr (h other rfl) (of_decide_eq_true hBehind)

end Code.TokenSearch.Leaf

/-! ## Where a search stops -/

namespace NodeValue

/-- Whether the check of a value without tokens returns all the same. -/
def stops (edge : Edge) : NodeValue → Bool
  | token _ | nullList => false
  | tokenList leaves => !leaves.isEmpty
  | nodeList nodes => !nodes.isEmpty
  | separatedList items _ => edge = .first && !items.isEmpty
  | child .null => false
  | child (.node _ _) => true

/-- Whether the check of a value with tokens sees the one at the edge. The element at the edge of a
list must have tokens, or the last separator must be the last token. -/
def shows (edge : Edge) (value : NodeValue) : Bool :=
  match value with
  | token _ | nullList | child _ => true
  | tokenList leaves => (edge.pick leaves).any (· ≠ .absent)
  | nodeList nodes => (edge.pick nodes).any (·.ordinals ≠ [])
  | separatedList items separators =>
    (edge.pick items).any (·.ordinals ≠ []) ||
      edge = .last && separators.getLast?.any (·.ordinal? = value.ordinals.getLast?)

structure IsKnown (nowhere : Int) (edge : Edge) (found : SyntaxTree → Leaf) (value : NodeValue) :
    Prop where
  ordered : value.ordinals.Pairwise (· < ·)
  above : ∀ ordinal ∈ value.ordinals, nowhere < ordinal
  fits : ∃ kind, value.fits kind
  found_eq : ∀ part ∈ value.children, found part = .ofOrdinal? (edge.pick part.ordinals)

section
variable {nowhere : Int} {edge : Edge} {found : SyntaxTree → Leaf} {value : NodeValue}

@[simp] theorem ordinals_token (leaf : Leaf) : (token leaf).ordinals = leaf.ordinal?.toList := by
  rw [ordinals, leaves]
  cases leaf <;> rfl

@[simp] theorem ordinals_nullList : nullList.ordinals = [] := by
  rw [ordinals, leaves]
  rfl

theorem ordinals_tokenList (leaves : List Leaf) :
    (tokenList leaves).ordinals = leaves.filterMap Leaf.ordinal? := by
  rw [ordinals, NodeValue.leaves]

theorem ordinals_nodeList (nodes : List SyntaxTree) :
    (nodeList nodes).ordinals = nodes.flatMap SyntaxTree.ordinals := by
  rw [ordinals, leaves, List.filterMap_flatMap]
  rfl

theorem ordinals_child (tree : SyntaxTree) : (child tree).ordinals = tree.ordinals := by
  rw [ordinals, leaves]
  rfl

theorem IsKnown.found_eq_absent (h : value.IsKnown nowhere edge found) (hNil : value.ordinals = [])
    {part : SyntaxTree} (hPart : part ∈ value.children) : found part = .absent := by
  have hSublist := ordinals_sublist_of_mem_children hPart
  rw [hNil, List.sublist_nil] at hSublist
  rw [h.found_eq part hPart, hSublist, Edge.pick_eq_none_iff.mpr rfl, Leaf.ofOrdinal?]

theorem leaf_eq_absent {leaf : Leaf} (hNil : value.ordinals = []) (hLeaf : leaf ∈ value.leaves) :
    leaf = .absent :=
  Leaf.ordinal?_eq_none_iff.mp (List.filterMap_eq_nil_iff.mp hNil leaf hLeaf)

theorem mem_leaves_of_getD_eq {items : List SyntaxTree} {separators : List Leaf} {ordinal : Int}
    (h : separators.getLast?.getD .absent = .present ordinal) :
    .present ordinal ∈ (separatedList items separators).leaves := by
  rw [leaves]
  apply (separators_sublist_interleave _ separators).subset
  exact List.mem_of_mem_getLast? (Leaf.eq_some_of_getD_eq h)

/-- The check of a value without tokens returns no token, if it returns. -/
theorem IsKnown.answer?_of_ordinals_eq_nil (h : value.IsKnown nowhere edge found)
    (hNil : value.ordinals = []) :
    answer? nowhere edge found value = if value.stops edge then some .absent else none := by
  have hLeaf : ∀ leaf ∈ value.leaves, leaf = .absent := fun leaf => leaf_eq_absent hNil
  have hFound : ∀ part ∈ value.children, found part = .absent := fun part => h.found_eq_absent hNil
  cases value with
  | token leaf => simp [answer?, stops, hLeaf leaf (by simp [leaves])]
  | nullList => rfl
  | tokenList leaves =>
    by_cases hEmpty : leaves = []
    · subst hEmpty
      cases edge <;> rfl
    · obtain ⟨leaf, hMem, hPick⟩ := edge.exists_pick_eq hEmpty
      have hAbsent := hLeaf leaf (by rwa [NodeValue.leaves])
      simp [answer?, stops, hPick, hAbsent, hEmpty]
  | nodeList nodes =>
    by_cases hEmpty : nodes = []
    · subst hEmpty
      cases edge <;> rfl
    · obtain ⟨part, hMem, hPick⟩ := edge.exists_pick_eq hEmpty
      simp [answer?, stops, hPick, hFound part hMem, hEmpty]
  | separatedList items separators =>
    by_cases hEmpty : items = []
    · subst hEmpty
      cases edge <;> rfl
    · obtain ⟨part, hMem, hPick⟩ := edge.exists_pick_eq hEmpty
      cases edge with
      | first =>
        have hHead : items.head? = some part := hPick
        simp [answer?, stops, hHead, hFound part hMem, hEmpty]
      | last =>
        have hLast : items.getLast? = some part := hPick
        have hSeparator : separators.getLast?.getD .absent = .absent := by
          cases hToken : separators.getLast?.getD .absent with
          | absent => rfl
          | present ordinal => exact hLeaf _ (mem_leaves_of_getD_eq hToken)
        simp [answer?, stops, hLast, hFound part hMem, hSeparator, Leaf.later]
  | child tree =>
    cases tree with
    | null => rfl
    | node tag values => simp [answer?, stops, hFound _ (List.mem_singleton.mpr rfl)]

theorem mem_ordinals_of_mem_leaves {ordinal : Int} (h : .present ordinal ∈ value.leaves) :
    ordinal ∈ value.ordinals :=
  List.mem_filterMap.mpr ⟨.present ordinal, h, rfl⟩

theorem IsKnown.pick_of_found (h : value.IsKnown nowhere edge found) {part : SyntaxTree}
    (hPart : part ∈ value.children) {ordinal : Int} :
    found part = .present ordinal ↔ edge.pick part.ordinals = some ordinal := by
  rw [h.found_eq part hPart]
  exact @Leaf.ofOrdinal?_inj _ (some ordinal)

theorem IsKnown.mem_ordinals_of_found (h : value.IsKnown nowhere edge found) {part : SyntaxTree}
    (hPart : part ∈ value.children) {ordinal : Int} (hFound : found part = .present ordinal) :
    ordinal ∈ value.ordinals :=
  (ordinals_sublist_of_mem_children hPart).subset
    (Edge.mem_of_pick_eq ((h.pick_of_found hPart).mp hFound))

/-- A token that a check returns is one of the value. -/
theorem IsKnown.mem_ordinals_of_answer? (h : value.IsKnown nowhere edge found) {ordinal : Int}
    (hAnswer : answer? nowhere edge found value = some (.present ordinal)) :
    ordinal ∈ value.ordinals := by
  cases value with
  | token leaf =>
    rw [answer?] at hAnswer
    split at hAnswer
    · cases hAnswer
    · cases hAnswer
      simp [Leaf.ordinal?]
  | nullList => cases hAnswer
  | tokenList leaves =>
    apply mem_ordinals_of_mem_leaves
    rw [NodeValue.leaves]
    exact Edge.mem_of_pick_eq hAnswer
  | nodeList nodes =>
    obtain ⟨part, hPick, hPart⟩ := Option.map_eq_some_iff.mp hAnswer
    exact h.mem_ordinals_of_found (Edge.mem_of_pick_eq hPick) hPart
  | separatedList items separators =>
    cases edge with
    | first =>
      obtain ⟨part, hPick, hPart⟩ := Option.map_eq_some_iff.mp hAnswer
      exact h.mem_ordinals_of_found (List.mem_of_mem_head? hPick) hPart
    | last =>
      obtain ⟨part, hPick, hLater⟩ := Option.bind_eq_some_iff.mp hAnswer
      rw [Leaf.ite_eq_some_present_iff] at hLater
      rcases Leaf.later_eq_or nowhere (found part) (separators.getLast?.getD .absent) with hEq | hEq
      · exact h.mem_ordinals_of_found (List.mem_of_mem_getLast? hPick) (hEq.symm.trans hLater)
      · exact mem_ordinals_of_mem_leaves (mem_leaves_of_getD_eq (hEq.symm.trans hLater))
  | child tree =>
    cases tree with
    | null => cases hAnswer
    | node tag values =>
      exact h.mem_ordinals_of_found (List.mem_singleton.mpr rfl) (Option.some.inj hAnswer)

theorem IsKnown.found_eq_iff (h : value.IsKnown nowhere edge found) {part : SyntaxTree}
    (hPart : part ∈ value.children) {ordinal : Int}
    (hEdge : part.ordinals ≠ [] → edge.pick part.ordinals = some ordinal) :
    found part = .present ordinal ↔ part.ordinals ≠ [] := by
  rw [h.pick_of_found hPart]
  constructor
  · intro hPick
    exact List.ne_nil_of_mem (Edge.mem_of_pick_eq hPick)
  · exact hEdge

theorem pick_ordinals_of_nodeList {nodes : List SyntaxTree} {part : SyntaxTree} {ordinal : Int}
    (hPart : edge.pick nodes = some part)
    (hPick : edge.pick (nodeList nodes).ordinals = some ordinal) (hNil : part.ordinals ≠ []) :
    edge.pick part.ordinals = some ordinal := by
  obtain ⟨other, -, hOther⟩ := edge.exists_pick_eq hNil
  rw [ordinals_nodeList, Edge.pick_flatMap, Edge.findSome?_ordered hPart hOther] at hPick
  rw [hOther, hPick]

theorem head?_ordinals_of_separatedList {items : List SyntaxTree} {separators : List Leaf}
    {part : SyntaxTree} {ordinal : Int} (hPart : items.head? = some part)
    (hPick : (separatedList items separators).ordinals.head? = some ordinal)
    (hNil : part.ordinals ≠ []) : part.ordinals.head? = some ordinal := by
  obtain ⟨rest, rfl⟩ := List.head?_eq_some_iff.mp hPart
  obtain ⟨behind, hBehind⟩ : ∃ behind,
      interleave ((part :: rest).map SyntaxTree.leaves) separators = part.leaves ++ behind := by
    cases separators with
    | nil => exact ⟨_, rfl⟩
    | cons separator separators => exact ⟨_, rfl⟩
  obtain ⟨other, others, hOther⟩ := List.exists_cons_of_ne_nil hNil
  rw [ordinals, leaves, hBehind, List.filterMap_append, ← SyntaxTree.ordinals, hOther] at hPick
  rw [hOther]
  exact hPick

theorem getLast?_ordinals_of_separatedList {items : List SyntaxTree} {separators : List Leaf}
    {part : SyntaxTree} {ordinal : Int} (hPart : items.getLast? = some part)
    (hLength : separators.length ≤ items.length)
    (hPick : (separatedList items separators).ordinals.getLast? = some ordinal)
    (hNil : part.ordinals ≠ []) :
    part.ordinals.getLast? = some ordinal ∨
      separators.getLast?.getD .absent = .present ordinal := by
  obtain ⟨front, rfl⟩ := List.getLast?_eq_some_iff.mp hPart
  rw [ordinals, leaves, List.map_append, List.map_singleton] at hPick
  have hSome := List.getLast?_isSome.mpr hNil
  obtain hEnd | ⟨earlier, separator, rfl, hEnd⟩ :=
    @interleave_concat (front.map SyntaxTree.leaves) separators part.leaves (by simpa using hLength)
  · rw [hEnd, List.filterMap_append, ← SyntaxTree.ordinals, List.getLast?_append,
      Option.or_of_isSome hSome] at hPick
    exact .inl hPick
  · rw [hEnd, List.filterMap_append, List.filterMap_append, ← SyntaxTree.ordinals] at hPick
    -- A separator behind the last item is the last token, unless it is absent.
    cases separator with
    | absent =>
      rw [List.filterMap_cons_none rfl, List.filterMap_nil, List.append_nil,
        List.getLast?_append, Option.or_of_isSome hSome] at hPick
      exact .inl hPick
    | present other =>
      change (_ ++ [other]).getLast? = some ordinal at hPick
      rw [List.getLast?_concat, Option.some.injEq] at hPick
      rw [List.getLast?_concat, Option.getD_some, hPick]
      exact .inr rfl

theorem length_le_of_fits {items : List SyntaxTree} {separators : List Leaf} {kind : FieldKind}
    (h : (separatedList items separators).fits kind) : separators.length ≤ items.length := by
  cases kind with
  | separatedList => exact of_decide_eq_true h
  | _ => cases h

/-- A list with tokens has an item, as it has no more separators than items. -/
theorem items_ne_nil {items : List SyntaxTree} {separators : List Leaf}
    (h : ∃ kind, (separatedList items separators).fits kind)
    (hNil : (separatedList items separators).ordinals ≠ []) : items ≠ [] := by
  rintro rfl
  obtain ⟨kind, hFits⟩ := h
  have hSeparators : separators = [] := List.length_eq_zero_iff.mp
    (Nat.le_zero.mp (length_le_of_fits hFits))
  apply hNil
  rw [ordinals, leaves, hSeparators]
  rfl

section
variable {items : List SyntaxTree} {separators : List Leaf} {ordinal : Int}

theorem IsKnown.answer?_first_eq_iff_shows
    (h : (separatedList items separators).IsKnown nowhere .first found)
    (hPick : (separatedList items separators).ordinals.head? = some ordinal) :
    answer? nowhere .first found (separatedList items separators) = some (.present ordinal) ↔
      (separatedList items separators).shows .first := by
  obtain ⟨part, hMem, hPart⟩ := Edge.first.exists_pick_eq
    (items_ne_nil h.fits (List.ne_nil_of_mem (List.mem_of_mem_head? hPick)))
  have hHead : items.head? = some part := hPart
  rw [answer?, hHead, Option.map_some, Option.some.injEq,
    h.found_eq_iff hMem (head?_ordinals_of_separatedList hHead hPick)]
  simp [shows, hPart]

theorem shows_separatedList_last_iff {part : SyntaxTree} (hPart : items.getLast? = some part)
    (hPick : (separatedList items separators).ordinals.getLast? = some ordinal) :
    (separatedList items separators).shows .last ↔
      part.ordinals ≠ [] ∨ separators.getLast?.getD .absent = .present ordinal := by
  have hEdge : Edge.last.pick items = some part := hPart
  rw [shows, hEdge, hPick]
  cases separators.getLast? with
  | none => simp
  | some separator => simp [Leaf.ordinal?_eq_some_iff]

theorem IsKnown.answer?_last_eq_iff_shows
    (h : (separatedList items separators).IsKnown nowhere .last found)
    (hPick : (separatedList items separators).ordinals.getLast? = some ordinal) :
    answer? nowhere .last found (separatedList items separators) = some (.present ordinal) ↔
      (separatedList items separators).shows .last := by
  have hOrdinal := List.mem_of_mem_getLast? hPick
  obtain ⟨part, hMem, hPart⟩ := Edge.last.exists_pick_eq
    (items_ne_nil h.fits (List.ne_nil_of_mem hOrdinal))
  have hLast : items.getLast? = some part := hPart
  have hAhead : ∀ other ∈ (separatedList items separators).ordinals, other ≤ ordinal :=
    @isAhead_of_pick_eq .last _ _ h.ordered hPick
  have hItem : ∀ other ∈ (found part).ordinal?, other ≤ ordinal := fun other hOther =>
    hAhead other (h.mem_ordinals_of_found hMem (Leaf.ordinal?_eq_some_iff.mp hOther))
  have hSeparator : ∀ other ∈ (separators.getLast?.getD .absent).ordinal?, other ≤ ordinal :=
    fun other hOther => hAhead other
      (mem_ordinals_of_mem_leaves (mem_leaves_of_getD_eq (Leaf.ordinal?_eq_some_iff.mp hOther)))
  rw [answer?, hLast, Option.bind_some, Leaf.ite_eq_some_present_iff,
    Leaf.later_eq_present_iff (h.above ordinal hOrdinal) hItem hSeparator, h.pick_of_found hMem,
    shows_separatedList_last_iff hLast hPick]
  obtain ⟨kind, hFits⟩ := h.fits
  constructor
  · rintro (hFound | hSeparator)
    · exact .inl (List.ne_nil_of_mem (Edge.mem_of_pick_eq hFound))
    · exact .inr hSeparator
  · rintro (hNil | hSeparator)
    · exact getLast?_ordinals_of_separatedList hLast (length_le_of_fits hFits) hPick hNil
    · exact .inr hSeparator

end

/-- A check returns the token at the edge if and only if it sees it. -/
theorem IsKnown.answer?_eq_iff_shows (h : value.IsKnown nowhere edge found) {ordinal : Int}
    (hPick : edge.pick value.ordinals = some ordinal) :
    answer? nowhere edge found value = some (.present ordinal) ↔ value.shows edge := by
  have hMem := Edge.mem_of_pick_eq hPick
  cases value with
  | token leaf =>
    have hLeaf : leaf = .present ordinal := by simpa [Leaf.ordinal?_eq_some_iff] using hMem
    simp [answer?, shows, hLeaf]
  | nullList => simp at hMem
  | tokenList leaves =>
    rw [ordinals_tokenList, Edge.pick_filterMap] at hPick
    rw [answer?, shows, Option.any_eq_true]
    constructor
    · intro hLeaf
      exact ⟨.present ordinal, hLeaf, by simp⟩
    · rintro ⟨leaf, hLeaf, hPresent⟩
      cases leaf with
      | absent => simp at hPresent
      | present other =>
        have hOther : (Leaf.present other).ordinal? = some other := rfl
        rw [Edge.findSome?_ordered hLeaf hOther, Option.some.injEq] at hPick
        rw [hLeaf, hPick]
  | nodeList nodes =>
    cases hPart : edge.pick nodes with
    | none => simp [ordinals_nodeList, Edge.pick_eq_none_iff.mp hPart] at hMem
    | some part =>
      rw [answer?, hPart, Option.map_some, Option.some.injEq, h.found_eq_iff
        (Edge.mem_of_pick_eq hPart) (pick_ordinals_of_nodeList hPart hPick)]
      simp [shows, hPart]
  | separatedList items separators =>
    cases edge with
    | first => exact h.answer?_first_eq_iff_shows hPick
    | last => exact h.answer?_last_eq_iff_shows hPick
  | child tree =>
    rw [ordinals_child] at hPick hMem
    cases tree with
    | null => simp [SyntaxTree.ordinals_eq, SyntaxTree.values] at hMem
    | node tag values =>
      rw [answer?, Option.some.injEq, h.found_eq_iff (List.mem_singleton.mpr rfl) fun _ => hPick]
      simp [shows, List.ne_nil_of_mem hMem]

end

end NodeValue

end NodeScaffold
