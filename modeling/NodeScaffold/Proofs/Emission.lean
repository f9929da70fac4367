import NodeScaffold.Document.Basic

/-! # When code can be written

The code of an artifact fails only for want of a tag, and only where the first tag of a node is
asked for. -/
namespace NodeScaffold
set_option autoImplicit false

section Traversal
variable {α β ε : Type} {f : α → Except ε β}

theorem exists_mapM_eq_error_iff {items : List α} :
    (∃ e, items.mapM f = .error e) ↔ ∃ a ∈ items, ∃ e, f a = .error e := by
  induction items with
  | nil => simp [pure, Except.pure]
  | cons a items ih =>
    rw [List.mapM_cons]
    cases hHead : f a with
    | error e => simp [bind, Except.bind, hHead]
    | ok b =>
      cases hTail : items.mapM f with
      | error e =>
        obtain ⟨c, hc, hError⟩ := ih.mp ⟨e, hTail⟩
        simp only [bind, Except.bind, List.mem_cons]
        exact ⟨fun _ => ⟨c, .inr hc, hError⟩, fun _ => ⟨e, rfl⟩⟩
      | ok bs =>
        have hNone := mt ih.mpr (by simp [hTail])
        simpa [bind, Except.bind, pure, Except.pure, hHead] using hNone

theorem exists_mem_of_mapM_eq_ok {items : List α} {results : List β}
    (h : items.mapM f = .ok results) {b : β} (hb : b ∈ results) : ∃ a ∈ items, f a = .ok b := by
  induction items generalizing results with
  | nil =>
    cases h
    cases hb
  | cons a items ih =>
    rw [List.mapM_cons] at h
    cases hHead : f a with
    | error e => simp [bind, Except.bind, hHead] at h
    | ok c =>
      cases hTail : items.mapM f with
      | error e => simp [bind, Except.bind, hHead, hTail] at h
      | ok cs =>
        simp only [bind, Except.bind, hHead, hTail] at h
        cases h
        rcases List.mem_cons.mp hb with rfl | hb
        · exact ⟨a, List.mem_cons_self, hHead⟩
        · obtain ⟨d, hd, hResult⟩ := ih hTail hb
          exact ⟨d, List.mem_cons_of_mem _ hd, hResult⟩

theorem exists_mapM_eq_ok {key : β → α} {items : List α}
    (h : ∀ a ∈ items, ∃ b, key b = a ∧ f a = .ok b) :
    ∃ results, results.map key = items ∧ items.mapM f = .ok results := by
  induction items with
  | nil => exact ⟨[], rfl, rfl⟩
  | cons a items ih =>
    obtain ⟨⟨b, hKey, hHead⟩, hItems⟩ := List.forall_mem_cons.mp h
    obtain ⟨bs, hKeys, hTail⟩ := ih hItems
    refine ⟨b :: bs, by rw [List.map_cons, hKey, hKeys], ?_⟩
    rw [List.mapM_cons, hHead, hTail]
    rfl

end Traversal

namespace Artifact

variable {node : NodeDecl} {write : Text → Fragment}

/-- What is written with the first tag of a node fails exactly if there is none. -/
theorem exists_bind_leadTag_eq_error_iff :
    (∃ e, (node.leadTag >>= fun tag => pure (write tag)) = .error e) ↔ node.tags = [] := by
  rw [NodeDecl.leadTag, NodeDecl.leadTag?]
  cases node.tags <;> simp [bind, Except.bind, pure, Except.pure]

theorem exists_mem_tags_of_bind_leadTag {fragment : Fragment}
    (h : (node.leadTag >>= fun tag => pure (write tag)) = .ok fragment) :
    ∃ tag ∈ node.tags, write tag = fragment := by
  rw [NodeDecl.leadTag, NodeDecl.leadTag?] at h
  cases hTags : node.tags with
  | nil => simp [hTags, bind, Except.bind] at h
  | cons tag tags =>
    rw [hTags] at h
    exact ⟨tag, List.mem_cons_self, Except.ok.inj h⟩

/-- Only builders and comparison can fail, and they do exactly if some node has no tag. -/
theorem exists_fragments_eq_error_iff {conv : Conventions} {nodes : List NodeDecl}
    {artifact : Artifact} :
    (∃ e, artifact.fragments conv nodes = .error e) ↔
      (artifact = .builders ∨ artifact = .equality) ∧ ∃ node ∈ nodes, node.tags = [] := by
  cases artifact with
  | builders =>
    have hTags : (∃ e, nodes.mapM (builderFragment conv) = .error e) ↔
        ∃ node ∈ nodes, node.tags = [] := by
      simp only [exists_mapM_eq_error_iff, builderFragment, exists_bind_leadTag_eq_error_iff]
    rw [← hTags, fragments]
    cases nodes.mapM (builderFragment conv) <;> simp [bind, Except.bind, pure, Except.pure]
  | equality =>
    have hTags : (∃ e, nodes.mapM (comparisonFragment conv) = .error e) ↔
        ∃ node ∈ nodes, node.tags = [] := by
      simp only [exists_mapM_eq_error_iff, comparisonFragment, exists_bind_leadTag_eq_error_iff]
    rw [← hTags, fragments]
    simp
  | printer | toucher | tokenBoundary => simp [fragments]

theorem exists_fragments_eq_ok (conv : Conventions) {nodes : List NodeDecl}
    (h : ∀ node ∈ nodes, node.tags ≠ []) (artifact : Artifact) :
    ∃ fragments, artifact.fragments conv nodes = .ok fragments := by
  cases hFragments : artifact.fragments conv nodes with
  | ok fragments => exact ⟨fragments, rfl⟩
  | error e =>
    obtain ⟨-, node, hNode, hTags⟩ := exists_fragments_eq_error_iff.mp ⟨e, hFragments⟩
    exact absurd hTags (h node hNode)

end Artifact

theorem Document.ofCatalog_eq_ok {conv : Conventions} {catalog : Catalog} {artifact : Artifact}
    {fragments : List Fragment} (h : artifact.fragments conv catalog.toList = .ok fragments) :
    ofCatalog conv catalog artifact = .ok ⟨artifact, artifact.fill fragments⟩ := by
  rw [ofCatalog, h]
  rfl

end NodeScaffold
