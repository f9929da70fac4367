import NodeScaffold.Proofs.CommandLines
import NodeScaffold.Proofs.Deliveries
import NodeScaffold.Proofs.Layout

/-! # How a command ends

A run is settled by what its input reads as and by how its documents are delivered. Its exit code,
its output and its files do not depend on what is logged. -/
namespace NodeScaffold
set_option autoImplicit false

/-! ## Repeated neighbours -/

section
variable {α : Type} [BEq α]

/-- The loop holds the last item that it has not written down yet. -/
theorem loop_eraseReps (a : α) (l out : List α) :
    List.eraseRepsBy.loop (· == ·) a l out = out.reverse ++ List.eraseReps (a :: l) := by
  rw [List.eraseReps, List.eraseRepsBy]
  induction l generalizing a out with
  | nil => simp [List.eraseRepsBy.loop]
  | cons b l ih =>
    simp only [List.eraseRepsBy.loop]
    split
    · exact ih a out
    · rw [ih b (a :: out), ih b [a], List.reverse_cons, List.append_assoc]
      rfl

theorem eraseReps_cons_cons (a b : α) (l : List α) :
    List.eraseReps (a :: b :: l) =
      if a == b then List.eraseReps (a :: l) else a :: List.eraseReps (b :: l) := by
  rw [List.eraseReps, List.eraseRepsBy, List.eraseRepsBy.loop]
  cases a == b
  · exact loop_eraseReps b l [a]
  · exact loop_eraseReps a l []

variable [LawfulBEq α]

theorem mem_eraseReps {c : α} {l : List α} : c ∈ l.eraseReps ↔ c ∈ l := by
  cases l with
  | nil => rfl
  | cons a l =>
    induction l generalizing a with
    | nil => rfl
    | cons b l ih =>
      rw [eraseReps_cons_cons]
      split
      · next hSame => simp [ih, ← eq_of_beq hSame]
      · rw [List.mem_cons, ih, List.mem_cons (a := c) (b := a)]

/-- Equal items of an ordered list are neighbours, so none is left twice. -/
theorem pairwise_eraseReps {le : α → α → Prop} (hAntisymm : ∀ a b, le a b → le b a → a = b)
    {l : List α} (h : l.Pairwise le) : l.eraseReps.Pairwise fun a b => le a b ∧ a ≠ b := by
  cases l with
  | nil => exact .nil
  | cons a l =>
    induction l generalizing a with
    | nil => exact List.pairwise_singleton _ a
    | cons b l ih =>
      obtain ⟨hHead, hTail⟩ := List.pairwise_cons.mp h
      rw [eraseReps_cons_cons]
      split
      · next hSame =>
        obtain rfl := eq_of_beq hSame
        exact ih a hTail
      · next hOther =>
        refine List.pairwise_cons.mpr ⟨fun c hc => ?_, ih b hTail⟩
        have hMem := mem_eraseReps.mp hc
        refine ⟨hHead c hMem, ?_⟩
        rintro rfl
        rcases List.mem_cons.mp hMem with rfl | hLater
        · exact hOther BEq.rfl
        · -- a second `a` behind `b` would put `b` between equal items
          have hBefore := (List.pairwise_cons.mp hTail).1 a hLater
          exact hOther (beq_iff_eq.mpr (hAntisymm a b (hHead b List.mem_cons_self) hBefore))

end

/-! ## The documents that are asked for -/

theorem Artifact.eq_of_rank_le (artifact artifact' : Artifact)
    (h : artifact.rank ≤ artifact'.rank) (h' : artifact'.rank ≤ artifact.rank) :
    artifact = artifact' := by
  cases artifact <;> cases artifact' <;> simp [rank] at h h' ⊢

namespace Document
variable {conv : Conventions} {catalog : Catalog} {documents : List Document}

theorem artifact_of_ofCatalog {artifact : Artifact} {document : Document}
    (h : ofCatalog conv catalog artifact = .ok document) : document.artifact = artifact := by
  obtain ⟨fragments, -, hDocument⟩ := exists_of_bind_eq_ok h
  cases hDocument
  rfl

theorem allOf_cons_eq_ok_iff {artifact : Artifact} {artifacts : List Artifact} :
    allOf conv catalog (artifact :: artifacts) = .ok documents ↔
      ∃ document others, ofCatalog conv catalog artifact = .ok document ∧
        allOf conv catalog artifacts = .ok others ∧ documents = document :: others := by
  rw [allOf, List.mapM_cons]
  constructor
  · intro h
    obtain ⟨document, hDocument, h⟩ := exists_of_bind_eq_ok h
    obtain ⟨others, hOthers, h⟩ := exists_of_bind_eq_ok h
    cases h
    exact ⟨document, others, hDocument, hOthers, rfl⟩
  · rintro ⟨document, others, hDocument, hOthers, rfl⟩
    rw [allOf] at hOthers
    rw [hDocument, hOthers]
    rfl

/-- Fewer artifacts have fewer documents, and those are the same. -/
theorem allOf_filter {artifacts : List Artifact} (h : allOf conv catalog artifacts = .ok documents)
    (p : Artifact → Bool) :
    allOf conv catalog (artifacts.filter p) = .ok (documents.filter (p ·.artifact)) := by
  induction artifacts generalizing documents with
  | nil =>
    cases h
    rfl
  | cons artifact artifacts ih =>
    obtain ⟨document, others, hDocument, hOthers, rfl⟩ := allOf_cons_eq_ok_iff.mp h
    rw [List.filter_cons, List.filter_cons, artifact_of_ofCatalog hDocument]
    split
    · exact allOf_cons_eq_ok_iff.mpr ⟨document, _, hDocument, ih hOthers, rfl⟩
    · exact ih hOthers

end Document

namespace Request

/-- Whether an artifact is asked for; all are if none is named. -/
def selects (request : Request) (artifact : Artifact) : Bool :=
  request.only.isEmpty || request.only.contains artifact

def documents (request : Request) (source : Text) : Except EmissionError (List Document) :=
  (Document.allOf .standard (Catalog.ofSource .standard source) Artifact.all).map
    (·.filter (request.selects ·.artifact))

variable {request : Request} {source : Text} {selected : List Document}

theorem mem_artifacts_iff (request : Request) (artifact : Artifact) :
    artifact ∈ request.artifacts ↔ request.selects artifact := by
  rw [artifacts, mem_eraseReps, List.mem_mergeSort, selects]
  cases request.only.isEmpty <;> simp [artifact.mem_all]

theorem pairwise_artifacts (request : Request) :
    request.artifacts.Pairwise fun a b => a.rank ≤ b.rank ∧ a ≠ b := by
  refine pairwise_eraseReps Artifact.eq_of_rank_le ?_
  refine (List.pairwise_mergeSort (fun a b c h h' => ?_) (fun a b => ?_) _).imp of_decide_eq_true
  · exact decide_eq_true (Nat.le_trans (of_decide_eq_true h) (of_decide_eq_true h'))
  · simpa using Nat.le_total a.rank b.rank

/-- Sorting and dropping repetitions leaves the artifacts that are asked for in the order of all. -/
theorem artifacts_eq_filter (request : Request) :
    request.artifacts = Artifact.all.filter request.selects := by
  have hAll : Artifact.all.Pairwise fun a b => a.rank ≤ b.rank ∧ a ≠ b := by decide
  have hSelected := hAll.filter request.selects
  have hMem (artifact : Artifact) :
      artifact ∈ request.artifacts ↔ artifact ∈ Artifact.all.filter request.selects := by
    rw [mem_artifacts_iff, List.mem_filter]
    exact (and_iff_right artifact.mem_all).symm
  have hPerm : request.artifacts.Perm (Artifact.all.filter request.selects) :=
    (List.perm_ext_iff_of_nodup (request.pairwise_artifacts.imp And.right)
      (hSelected.imp And.right)).mpr hMem
  exact hPerm.eq_of_pairwise (fun a b _ _ h h' => Artifact.eq_of_rank_le a b h.1 h'.1)
    request.pairwise_artifacts hSelected

theorem exists_documents (request : Request) (source : Text) :
    ∃ selected, request.documents source = .ok selected := by
  obtain ⟨all, -, hAll⟩ := Document.exists_allOf_ofSource_eq_ok .standard source
  exact ⟨_, by rw [documents, hAll]; rfl⟩

section
variable (h : request.documents source = .ok selected)
include h

theorem exists_allOf_of_documents :
    ∃ all, Document.allOf .standard (Catalog.ofSource .standard source) Artifact.all = .ok all ∧
      all.map Document.artifact = Artifact.all ∧
      selected = all.filter (request.selects ·.artifact) := by
  obtain ⟨all, hArtifacts, hAll⟩ := Document.exists_allOf_ofSource_eq_ok .standard source
  rw [documents, hAll] at h
  exact ⟨all, hAll, hArtifacts, (Except.ok.inj h).symm⟩

theorem allOf_artifacts :
    Document.allOf .standard (Catalog.ofSource .standard source) request.artifacts =
      .ok selected := by
  obtain ⟨all, hAll, -, rfl⟩ := exists_allOf_of_documents h
  rw [artifacts_eq_filter]
  exact Document.allOf_filter hAll request.selects

theorem map_artifact_documents : selected.map Document.artifact = request.artifacts := by
  obtain ⟨all, -, hArtifacts, rfl⟩ := exists_allOf_of_documents h
  rw [artifacts_eq_filter, ← hArtifacts, List.filter_map]
  rfl

theorem nodup_documents : (selected.map Document.artifact).Nodup := by
  rw [map_artifact_documents h]
  exact request.pairwise_artifacts.imp And.right

/-- Something is always asked for. -/
theorem documents_ne_nil : selected ≠ [] := by
  obtain ⟨artifact, hSelects⟩ : ∃ artifact, request.selects artifact := by
    cases hOnly : request.only with
    | nil => exact ⟨.builders, by simp [selects, hOnly]⟩
    | cons artifact only => exact ⟨artifact, by simp [selects, hOnly]⟩
  have hMem : artifact ∈ selected.map Document.artifact := by
    rw [map_artifact_documents h]
    exact (request.mem_artifacts_iff artifact).mpr hSelects
  rintro rfl
  cases hMem

end

/-- What a narrower request asks for is among what the wider one does. -/
theorem documents_subset {request' : Request} {selected' : List Document}
    (h : request.documents source = .ok selected)
    (h' : request'.documents source = .ok selected')
    (hSelects : ∀ artifact, request'.selects artifact → request.selects artifact) :
    selected' ⊆ selected := by
  obtain ⟨all, hAll, -, rfl⟩ := exists_allOf_of_documents h
  obtain ⟨all', hAll', -, rfl⟩ := exists_allOf_of_documents h'
  obtain rfl : all = all' := Except.ok.inj (hAll.symm.trans hAll')
  intro document hDocument
  obtain ⟨hMem, hSelected⟩ := List.mem_filter.mp hDocument
  exact List.mem_filter.mpr ⟨hMem, hSelects document.artifact hSelected⟩

end Request

/-! ## Endings -/

namespace Request

inductive Ends (request : Request) (before : World) : Except Failure Unit → World → Prop
  | unreadable {e : FileError} (hRead : before.files.readText request.input = .error e) :
    Ends request before (.error (.cannotRead request.input e)) before
  | delivered {source : Text} {selected : List Document} {result : Except Failure Unit}
    {after : World} (hRead : before.files.readText request.input = .ok source)
    (hDocuments : request.documents source = .ok selected)
    (hDelivery : Delivery request.out selected before request.check result after) :
    Ends request before result after

open Command
variable {request : Request} {before after : World} {result : Except Failure Unit}

theorem exists_ends (request : Request) (before : World) :
    ∃ result after, request.Ends before result after := by
  cases hRead : before.files.readText request.input with
  | error e => exact ⟨_, _, .unreadable hRead⟩
  | ok source =>
    obtain ⟨selected, hDocuments⟩ := request.exists_documents source
    obtain ⟨result, after, hDelivery⟩ :=
      Delivery.exists_delivery request.out selected before request.check
    exact ⟨result, after, .delivered hRead hDocuments hDelivery⟩

/-- Once the input is read, an ending is a delivery. -/
theorem Ends.delivery {source : Text} {selected : List Document}
    (h : request.Ends before result after)
    (hRead : before.files.readText request.input = .ok source)
    (hDocuments : request.documents source = .ok selected) :
    Delivery request.out selected before request.check result after := by
  cases h with
  | unreadable hFailed => cases hRead.symm.trans hFailed
  | delivered hRead' hDocuments' hDelivery =>
    obtain rfl := Except.ok.inj (hRead.symm.trans hRead')
    obtain rfl := Except.ok.inj (hDocuments.symm.trans hDocuments')
    exact hDelivery

theorem does_readCatalog {source : Text} (filter : Filter)
    (h : before.files.readText request.input = .ok source) :
    Does (request.readCatalog filter .standard) before (.ok (Catalog.ofSource .standard source))
      before := by
  have hRead : World.Changes (Host.readText request.input) before.files (.ok source)
      before.files := by
    rw [← h]
    exact World.changes_readText request.input
  refine (does_attempt_ok hRead).bind ((does_forM (does_log filter)).bind ?_)
  refine (does_log filter _).bind ?_
  split
  · exact (does_report _).bind (Does.pure _)
  · exact Does.pure _

theorem Ends.does (h : request.Ends before result after) (filter : Filter) :
    Does (request.run filter .standard) before result after := by
  cases h with
  | unreadable hRead =>
    have hRead : World.Changes (Host.readText request.input) before.files _ before.files :=
      hRead ▸ World.changes_readText request.input
    exact (does_attempt_error hRead).bind_error.bind_error
  | delivered hRead hDocuments hDelivery =>
    refine (does_readCatalog filter hRead).bind ((does_forM (does_log filter)).bind ?_)
    rw [allOf_artifacts hDocuments]
    exact hDelivery.does

/-- Requests that differ only in what they log and in how they name the same artifacts end alike. -/
theorem Ends.congr {request' : Request} (h : request.Ends before result after)
    (hInput : request'.input = request.input) (hOut : request'.out = request.out)
    (hCheck : request'.check = request.check) (hSelects : request'.selects = request.selects) :
    request'.Ends before result after := by
  cases h with
  | unreadable hRead =>
    rw [← hInput] at hRead ⊢
    exact .unreadable hRead
  | delivered hRead hDocuments hDelivery =>
    refine .delivered (hInput ▸ hRead) ?_ (hOut ▸ hCheck ▸ hDelivery)
    rw [documents, hSelects]
    exact hDocuments

end Request

/-! ## Outcomes -/

def exitCode : Except Failure Unit → Nat
  | .ok () => 0
  | .error _ => 1

def farewell : Except Failure Unit → Text
  | .ok () => []
  | .error failure => failure.lines.flatMap (· ++ ['\n'])

theorem exitCode_eq_zero_iff {result : Except Failure Unit} :
    exitCode result = 0 ↔ result = .ok () := by
  cases result <;> simp [exitCode]

namespace Command

def outcome (setting? : Option Text) (arguments : List Text) (before : World) : Nat × World :=
  (Command.run setting? arguments : StateM World Nat).run before

theorem run_forM_report (lines : List Text) (world : World) :
    (lines.forM Host.report : StateM World Unit).run world =
      ((), { world with errors := world.errors ++ lines.flatMap (· ++ ['\n']) }) := by
  induction lines generalizing world with
  | nil =>
    rw [List.flatMap_nil, List.append_nil]
    rfl
  | cons line lines ih =>
    rw [List.flatMap_cons, ← List.append_assoc, ← List.append_assoc]
    exact ih _

variable {arguments : List Text} {request : Request} {before after : World}
  {result : Except Failure Unit}

/-- Only a run touches files. -/
theorem files_outcome_of_not_run (setting? : Option Text)
    (h : ∀ request, Invocation.ofArguments arguments ≠ .ok (.run request)) :
    (outcome setting? arguments before).2.files = before.files := by
  rw [outcome, Command.run]
  split
  · next request hRun => exact absurd hRun (h request)
  · rfl
  · rfl
  · rfl

/-- A command line that asks for a run has the outcome of that run. -/
theorem outcome_eq (hArguments : Invocation.ofArguments arguments = .ok (.run request))
    (h : request.Ends before result after) (setting? : Option Text) :
    ∃ told, outcome setting? arguments before =
      (exitCode result, { after with errors := before.errors ++ told ++ farewell result }) := by
  obtain ⟨told, hTold⟩ := h.does (request.filter setting?) before.errors
  refine ⟨told, ?_⟩
  rw [outcome, Command.run, hArguments]
  simp only [Request.execute]
  rw [StateT.run_bind, hTold]
  cases result with
  | ok =>
    rw [farewell, List.append_nil]
    rfl
  | error failure =>
    have hReport := run_forM_report failure.lines { after with errors := before.errors ++ told }
    exact congrArg (fun ended : Unit × World => (1, ended.2)) hReport

end Command

end NodeScaffold
