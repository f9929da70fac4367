import NodeScaffold.Command.Run
import NodeScaffold.Proofs.Effects

/-! # How documents are delivered

A delivery is an account of what becomes of documents, in terms of what paths lead to. There is one
for every output path, every list of documents and every world, and the program does what it says. -/
namespace NodeScaffold
set_option autoImplicit false

namespace Document
variable {out : Text} {document : Document} {documents : List Document} {tree tree' : FileTree}
  {place : Location}

def putIn (out : Text) (tree : FileTree) (document : Document) : Except FileError FileTree :=
  tree.writeText (document.pathIn out) document.text

def putAllIn (out : Text) (tree : FileTree) (documents : List Document) :
    Except FileError FileTree :=
  documents.foldlM (putIn out) tree

def StandsIn (out : Text) (tree : FileTree) (document : Document) : Prop :=
  tree.readText (document.pathIn out) = .ok document.text

instance (out : Text) (tree : FileTree) : DecidablePred (StandsIn out tree) :=
  fun document => inferInstanceAs (Decidable (tree.readText (document.pathIn out) = .ok document.text))

theorem isFileName_fileName (document : Document) : Path.IsFileName document.fileName :=
  document.artifact.isFileName_fileName

/-- Files of different documents stand at different places. -/
theorem artifact_eq_of_locate {document' : Document}
    (h : tree.locate (document.pathIn out) = .ok (.name place))
    (h' : tree.locate (document'.pathIn out) = .ok (.name place)) :
    document.artifact = document'.artifact := by
  have hHead := FileTree.head?_of_locate_join document.isFileName_fileName h
  rw [FileTree.head?_of_locate_join document'.isFileName_fileName h'] at hHead
  exact Artifact.fileName_injective (Option.some.inj hHead).symm

theorem putIn_eq_ok_iff : document.putIn out tree = .ok tree' ↔
    ∃ place, tree.locate (document.pathIn out) = .ok (.name place) ∧
      tree.entry? place ≠ some .directory ∧
      tree' = tree.insert place (.file (.text document.text)) := by
  rw [putIn, FileTree.writeText_eq_ok_iff, pathIn, document.isFileName_fileName.endsInSlash_join out]
  simp

theorem standsIn_iff : document.StandsIn out tree ↔
    ∃ place, tree.locate (document.pathIn out) = .ok (.name place) ∧
      tree.entry? place = some (.file (.text document.text)) := by
  rw [StandsIn, FileTree.readText_eq_ok_iff, pathIn,
    document.isFileName_fileName.endsInSlash_join out]
  simp

theorem keeps_of_putIn (h : document.putIn out tree = .ok tree') : tree.Keeps tree' :=
  FileTree.keeps_of_writeText h

theorem putAllIn_cons_eq_ok_iff : putAllIn out tree (document :: documents) = .ok tree' ↔
    ∃ middle, document.putIn out tree = .ok middle ∧ putAllIn out middle documents = .ok tree' := by
  constructor
  · exact exists_of_bind_eq_ok
  · rintro ⟨middle, hPut, hRest⟩
    rw [putAllIn, List.foldlM_cons, hPut]
    exact hRest

theorem keeps_of_putAllIn (h : putAllIn out tree documents = .ok tree') : tree.Keeps tree' := by
  induction documents generalizing tree with
  | nil =>
    cases h
    exact .refl _
  | cons document documents ih =>
    obtain ⟨middle, hPut, hRest⟩ := putAllIn_cons_eq_ok_iff.mp h
    exact (keeps_of_putIn hPut).trans (ih hRest)

/-- Only the files of the documents change. -/
theorem entry?_of_putAllIn (h : putAllIn out tree documents = .ok tree')
    (hPlace : ∀ document ∈ documents, tree'.locate (document.pathIn out) ≠ .ok (.name place)) :
    tree'.entry? place = tree.entry? place := by
  induction documents generalizing tree with
  | nil =>
    cases h
    rfl
  | cons document documents ih =>
    obtain ⟨middle, hPut, hRest⟩ := putAllIn_cons_eq_ok_iff.mp h
    obtain ⟨hFirst, hOthers⟩ := List.forall_mem_cons.mp hPlace
    rw [ih hRest hOthers]
    have hKeeps := keeps_of_putAllIn h
    obtain ⟨written, hLocate, -, rfl⟩ := putIn_eq_ok_iff.mp hPut
    rw [FileTree.entry?_insert (FileTree.ne_nil_of_locate hLocate), if_neg]
    rintro rfl
    exact hFirst (hKeeps.locate hLocate)

/-- What was put into a tree stands there when all is done. -/
theorem standsIn_of_putAllIn (h : putAllIn out tree documents = .ok tree')
    (hDistinct : (documents.map Document.artifact).Nodup) :
    ∀ document ∈ documents, document.StandsIn out tree' := by
  induction documents generalizing tree with
  | nil => simp
  | cons document documents ih =>
    obtain ⟨middle, hPut, hRest⟩ := putAllIn_cons_eq_ok_iff.mp h
    rw [List.map_cons, List.nodup_cons] at hDistinct
    refine List.forall_mem_cons.mpr ⟨?_, ih hRest hDistinct.2⟩
    have hLater := (keeps_of_putIn hPut).trans (keeps_of_putAllIn hRest)
    obtain ⟨place, hLocate, -, rfl⟩ := putIn_eq_ok_iff.mp hPut
    refine standsIn_iff.mpr ⟨place, hLater.locate hLocate, ?_⟩
    -- the later documents go to other places
    rw [entry?_of_putAllIn hRest, FileTree.entry?_insert (FileTree.ne_nil_of_locate hLocate),
      if_pos rfl]
    intro other hOther hSame
    apply hDistinct.1
    rw [artifact_eq_of_locate (hLater.locate hLocate) hSame]
    exact List.mem_map_of_mem hOther

theorem writable_of_putAllIn {path : Text} (h : putAllIn out tree documents = .ok tree')
    (hPath : tree.Writable path) : tree'.Writable path := by
  induction documents generalizing tree with
  | nil =>
    cases h
    exact hPath
  | cons document documents ih =>
    obtain ⟨middle, hPut, hRest⟩ := putAllIn_cons_eq_ok_iff.mp h
    exact ih hRest (hPath.of_writeText hPut)

/-- The first document that cannot be put into a tree, if there is one, comes after those that can. -/
theorem exists_putAllIn_eq (out : Text) (tree : FileTree) (documents : List Document) :
    (∃ tree', putAllIn out tree documents = .ok tree') ∨
      ∃ written document rest tree' e, documents = written ++ document :: rest ∧
        putAllIn out tree written = .ok tree' ∧ document.putIn out tree' = .error e := by
  induction documents generalizing tree with
  | nil => exact .inl ⟨tree, rfl⟩
  | cons document documents ih =>
    cases hPut : document.putIn out tree with
    | error e => exact .inr ⟨[], document, documents, tree, e, rfl, rfl, hPut⟩
    | ok middle =>
      obtain ⟨tree', hRest⟩ | ⟨written, failed, rest, tree', e, hSplit, hWritten, hFailed⟩ :=
        ih middle
      · exact .inl ⟨tree', putAllIn_cons_eq_ok_iff.mpr ⟨middle, hPut, hRest⟩⟩
      · refine .inr ⟨document :: written, failed, rest, tree', e, ?_, ?_, hFailed⟩
        · rw [hSplit, List.cons_append]
        · exact putAllIn_cons_eq_ok_iff.mpr ⟨middle, hPut, hWritten⟩

/-- Documents that stand in a tree can be put there again, and nothing changes. -/
theorem entry?_of_putAllIn_of_standsIn (h : putAllIn out tree documents = .ok tree')
    (hStand : ∀ document ∈ documents, document.StandsIn out tree) (place : Location) :
    tree'.entry? place = tree.entry? place := by
  induction documents generalizing tree with
  | nil =>
    cases h
    rfl
  | cons document documents ih =>
    obtain ⟨middle, hPut, hRest⟩ := putAllIn_cons_eq_ok_iff.mp h
    obtain ⟨hFirst, hOthers⟩ := List.forall_mem_cons.mp hStand
    obtain ⟨standing, hStanding, hEntry⟩ := standsIn_iff.mp hFirst
    have hKeeps := keeps_of_putIn hPut
    obtain ⟨written, hLocate, -, rfl⟩ := putIn_eq_ok_iff.mp hPut
    obtain rfl : standing = written := by simpa [hStanding] using hLocate
    have hSame : ∀ place, FileTree.entry? (tree.insert standing (.file (.text document.text))) place =
        tree.entry? place := by
      intro place
      rw [FileTree.entry?_insert (FileTree.ne_nil_of_locate hLocate)]
      split
      · next hPlace => rw [hPlace, hEntry]
      · rfl
    rw [ih hRest, hSame]
    intro other hOther
    obtain ⟨place', hLocate', hEntry'⟩ := standsIn_iff.mp (hOthers other hOther)
    exact standsIn_iff.mpr ⟨place', hKeeps.locate hLocate', by rw [hSame, hEntry']⟩

def CanBeCompared (out : Text) (tree : FileTree) (document : Document) : Prop :=
  ∀ e, tree.readText (document.pathIn out) = .error e → e = .notFound

def staleIn (out : Text) (tree : FileTree) (documents : List Document) : List Document :=
  documents.filter (¬ StandsIn out tree ·)

theorem staleIn_cons (document : Document) (documents : List Document) :
    staleIn out tree (document :: documents) = if decide (¬ document.StandsIn out tree) then
      document :: staleIn out tree documents else staleIn out tree documents :=
  List.filter_cons

theorem staleIn_eq_nil_iff :
    staleIn out tree documents = [] ↔ ∀ document ∈ documents, document.StandsIn out tree := by
  simp [staleIn, List.filter_eq_nil_iff]

theorem StandsIn.canBeCompared (h : document.StandsIn out tree) : document.CanBeCompared out tree := by
  intro e he
  rw [StandsIn, he] at h
  cases h

/-- The first document that cannot be compared, if there is one, comes after those that can. -/
theorem exists_canBeCompared (out : Text) (tree : FileTree) (documents : List Document) :
    (∀ document ∈ documents, document.CanBeCompared out tree) ∨
      ∃ compared document rest e, documents = compared ++ document :: rest ∧
        (∀ document ∈ compared, document.CanBeCompared out tree) ∧
        tree.readText (document.pathIn out) = .error e ∧ e ≠ .notFound := by
  induction documents with
  | nil => simp
  | cons document documents ih =>
    by_cases hFirst : document.CanBeCompared out tree
    · obtain hOthers | ⟨compared, failed, rest, e, hSplit, hCompared, hFailed⟩ := ih
      · exact .inl (List.forall_mem_cons.mpr ⟨hFirst, hOthers⟩)
      · refine .inr ⟨document :: compared, failed, rest, e, ?_, ?_, hFailed⟩
        · rw [hSplit, List.cons_append]
        · exact List.forall_mem_cons.mpr ⟨hFirst, hCompared⟩
    · simp only [CanBeCompared, not_forall] at hFirst
      obtain ⟨e, hRead, hReason⟩ := hFirst
      exact .inr ⟨[], document, documents, e, rfl, by simp, hRead, hReason⟩

end Document

/-- What becomes of documents that are compared with files (`true`), or else printed or written. -/
inductive Delivery (out : Text) (documents : List Document) (before : World) :
    Bool → Except Failure Unit → World → Prop
  | nothingToCheck (hOut : Path.isStandardOutput out = true) :
    Delivery out documents before true (.error .nothingToCheck) before
  | upToDate (hOut : Path.isStandardOutput out = false)
    (hStand : ∀ document ∈ documents, document.StandsIn out before.files) :
    Delivery out documents before true (.ok ()) before
  | outOfDate (hOut : Path.isStandardOutput out = false)
    (hCompared : ∀ document ∈ documents, document.CanBeCompared out before.files)
    (hStale : Document.staleIn out before.files documents ≠ []) :
    Delivery out documents before true
      (.error (.outOfDate ((Document.staleIn out before.files documents).map Document.fileName)))
      before
  | notCompared {compared rest : List Document} {document : Document} {e : FileError}
    (hOut : Path.isStandardOutput out = false)
    (hDocuments : documents = compared ++ document :: rest)
    (hCompared : ∀ document ∈ compared, document.CanBeCompared out before.files)
    (hRead : before.files.readText (document.pathIn out) = .error e) (hReason : e ≠ .notFound) :
    Delivery out documents before true (.error (.cannotRead (document.pathIn out) e)) before
  | printed (hOut : Path.isStandardOutput out = true) :
    Delivery out documents before false (.ok ())
      { before with output := before.output ++ documents.flatMap Document.text }
  | noDirectory {tree : FileTree} {e : FileError} (hOut : Path.isStandardOutput out = false)
    (hCreate : World.Changes (Host.createDirectories out) before.files (.error e) tree) :
    Delivery out documents before false (.error (.cannotCreate out e))
      { before with files := tree }
  | interrupted {made tree : FileTree} {written rest : List Document} {document : Document}
    {e : FileError} (hOut : Path.isStandardOutput out = false)
    (hCreate : World.Changes (Host.createDirectories out) before.files (.ok ()) made)
    (hDocuments : documents = written ++ document :: rest)
    (hWritten : Document.putAllIn out made written = .ok tree)
    (hFailed : document.putIn out tree = .error e) :
    Delivery out documents before false (.error (.cannotWrite (document.pathIn out) e))
      { before with files := tree }
  | written {made tree : FileTree} (hOut : Path.isStandardOutput out = false)
    (hCreate : World.Changes (Host.createDirectories out) before.files (.ok ()) made)
    (hWritten : Document.putAllIn out made documents = .ok tree) :
    Delivery out documents before false (.ok ()) { before with files := tree }

namespace Document
open Command
variable {out : Text} {document : Document} {documents : List Document} {before : World}
  {filter : Filter}

theorem does_printAll (documents : List Document) (before : World) :
    Does (printAll documents) before (.ok ())
      { before with output := before.output ++ documents.flatMap Document.text } := by
  induction documents generalizing before with
  | nil =>
    rw [List.flatMap_nil, List.append_nil]
    exact Does.pure ()
  | cons document documents ih =>
    rw [List.flatMap_cons, ← List.append_assoc]
    exact (does_print document.text).bind (ih _)

theorem does_write {tree : FileTree} (h : document.putIn out before.files = .ok tree) :
    Does (write filter out document) before (.ok ()) { before with files := tree } :=
  (does_attempt_ok (World.changes_update_ok h)).bind (does_log filter _)

theorem does_write_error {e : FileError} (h : document.putIn out before.files = .error e) :
    Does (write filter out document) before (.error (.cannotWrite (document.pathIn out) e))
      before :=
  (does_attempt_error (World.changes_update_error h)).bind_error

theorem does_forM_write {tree : FileTree}
    (h : putAllIn out before.files documents = .ok tree) :
    Does (documents.forM (write filter out)) before (.ok ()) { before with files := tree } := by
  induction documents generalizing before with
  | nil =>
    cases h
    exact Does.pure ()
  | cons document documents ih =>
    obtain ⟨middle, hPut, hRest⟩ := putAllIn_cons_eq_ok_iff.mp h
    exact (does_write hPut).bind (ih hRest)

/-- Writing stops at the first document that cannot be written. -/
theorem does_forM_write_error {tree : FileTree} {written : List Document} {e : FileError}
    (h : putAllIn out before.files written = .ok tree) (hFailed : document.putIn out tree = .error e)
    (rest : List Document) :
    Does ((written ++ document :: rest).forM (write filter out)) before
      (.error (.cannotWrite (document.pathIn out) e)) { before with files := tree } := by
  induction written generalizing before with
  | nil =>
    cases h
    exact (does_write_error hFailed).bind_error
  | cons first written ih =>
    obtain ⟨middle, hPut, hRest⟩ := putAllIn_cons_eq_ok_iff.mp h
    exact (does_write hPut).bind (ih hRest)

theorem does_isStale (h : document.CanBeCompared out before.files) :
    Does (isStale filter out document) before
      (.ok (decide (¬ document.StandsIn out before.files))) before := by
  refine (does_lift (World.changes_readText (document.pathIn out))).bind ?_
  cases hRead : before.files.readText (document.pathIn out) with
  | ok t =>
    by_cases hText : t = document.text
    · have hStand : document.StandsIn out before.files := by rw [StandsIn, hRead, hText]
      simp only [hText, hStand, if_true, not_true, decide_false]
      exact (does_log filter _).bind (Does.pure false)
    · have hStand : ¬ document.StandsIn out before.files := by simp [StandsIn, hRead, hText]
      simp only [hText, hStand, if_false, not_false_iff, decide_true]
      exact Does.pure true
  | error e =>
    obtain rfl := h e hRead
    have hStand : ¬ document.StandsIn out before.files := by simp [StandsIn, hRead]
    simp only [hStand, not_false_iff, decide_true]
    exact Does.pure true

theorem does_isStale_error {e : FileError}
    (h : before.files.readText (document.pathIn out) = .error e) (hReason : e ≠ .notFound) :
    Does (isStale filter out document) before (.error (.cannotRead (document.pathIn out) e))
      before := by
  refine (does_lift (World.changes_readText (document.pathIn out))).bind ?_
  rw [h]
  split
  · next hText => cases hText
  · next hMissing => exact absurd (Except.error.inj hMissing) hReason
  · next hError =>
    cases hError
    exact Does.throw _

theorem does_staleFiles (h : ∀ document ∈ documents, document.CanBeCompared out before.files) :
    Does (staleFiles filter out documents) before
      (.ok ((staleIn out before.files documents).map fileName)) before := by
  induction documents with
  | nil => exact Does.pure []
  | cons document documents ih =>
    obtain ⟨hFirst, hOthers⟩ := List.forall_mem_cons.mp h
    refine (does_isStale hFirst).bind ((ih hOthers).bind ?_)
    rw [staleIn_cons, apply_ite (List.map fileName)]
    exact Does.pure _

theorem does_staleFiles_error {compared : List Document} {e : FileError}
    (hCompared : ∀ document ∈ compared, document.CanBeCompared out before.files)
    (h : before.files.readText (document.pathIn out) = .error e) (hReason : e ≠ .notFound)
    (rest : List Document) :
    Does (staleFiles filter out (compared ++ document :: rest)) before
      (.error (.cannotRead (document.pathIn out) e)) before := by
  induction compared with
  | nil => exact (does_isStale_error h hReason).bind_error
  | cons first compared ih =>
    obtain ⟨hFirst, hOthers⟩ := List.forall_mem_cons.mp hCompared
    exact (does_isStale hFirst).bind (ih hOthers).bind_error

theorem does_checkAll (filter : Filter)
    (h : ∀ document ∈ documents, document.CanBeCompared out before.files) :
    Does (checkAll filter out documents) before
      (if staleIn out before.files documents = [] then .ok ()
        else .error (.outOfDate ((staleIn out before.files documents).map fileName))) before := by
  refine (does_staleFiles h).bind ?_
  cases staleIn out before.files documents with
  | nil => exact does_log filter _
  | cons document stale => exact Does.throw _

end Document

namespace Delivery
open Command
variable {out : Text} {documents : List Document} {before after : World} {check : Bool}
  {result : Except Failure Unit}

/-- There is an account of every delivery. -/
theorem exists_delivery (out : Text) (documents : List Document) (before : World) (check : Bool) :
    ∃ result after, Delivery out documents before check result after := by
  cases hOut : Path.isStandardOutput out <;> cases check
  · obtain ⟨result, made, hCreate⟩ := World.exists_changes_createDirectories out before.files
    cases result with
    | error e => exact ⟨_, _, noDirectory hOut hCreate⟩
    | ok =>
      obtain ⟨tree, hWritten⟩ | ⟨done, document, rest, tree, e, hDocuments, hDone, hFailed⟩ :=
        Document.exists_putAllIn_eq out made documents
      · exact ⟨_, _, written hOut hCreate hWritten⟩
      · exact ⟨_, _, interrupted hOut hCreate hDocuments hDone hFailed⟩
  · obtain hCompared | ⟨compared, document, rest, e, hDocuments, hCompared, hRead, hReason⟩ :=
      Document.exists_canBeCompared out before.files documents
    · by_cases hStale : Document.staleIn out before.files documents = []
      · exact ⟨_, _, upToDate hOut (Document.staleIn_eq_nil_iff.mp hStale)⟩
      · exact ⟨_, _, outOfDate hOut hCompared hStale⟩
    · exact ⟨_, _, notCompared hOut hDocuments hCompared hRead hReason⟩
  · exact ⟨_, _, printed hOut⟩
  · exact ⟨_, _, nothingToCheck hOut⟩

/-- The program does what the account says. -/
theorem does {request : Request} {filter : Filter}
    (h : Delivery request.out documents before request.check result after) :
    Does (request.deliver filter documents) before result after := by
  obtain ⟨input, out, only, check, dump, verbose⟩ := request
  simp only at h
  rw [Request.deliver]
  cases h with
  | nothingToCheck hOut =>
    simp only [hOut]
    exact Does.throw _
  | upToDate hOut hStand =>
    simp only [hOut]
    have hCheck := Document.does_checkAll filter fun document hDocument =>
      (hStand document hDocument).canBeCompared
    rwa [if_pos (Document.staleIn_eq_nil_iff.mpr hStand)] at hCheck
  | outOfDate hOut hCompared hStale =>
    simp only [hOut]
    have hCheck := Document.does_checkAll filter hCompared
    rwa [if_neg hStale] at hCheck
  | notCompared hOut hDocuments hCompared hRead hReason =>
    simp only [hOut, hDocuments]
    exact (Document.does_staleFiles_error hCompared hRead hReason _).bind_error
  | printed hOut =>
    simp only [hOut]
    exact Document.does_printAll documents before
  | noDirectory hOut hCreate =>
    simp only [hOut]
    exact (does_attempt_error hCreate).bind_error
  | interrupted hOut hCreate hDocuments hWritten hFailed =>
    simp only [hOut, hDocuments]
    exact (does_attempt_ok hCreate).bind (Document.does_forM_write_error hWritten hFailed _)
  | written hOut hCreate hWritten =>
    simp only [hOut]
    exact (does_attempt_ok hCreate).bind (Document.does_forM_write hWritten)

/-- Documents are written if their directory is there and no other stands in their places. -/
theorem eq_written {place : Location} (h : Delivery out documents before false result after)
    (hOut : Path.isStandardOutput out = false) (hNil : out ≠ [])
    (hSize : out.byteSize < Path.lengthLimit)
    (hWalk : (Path.parts out).foldlM before.files.enter (before.files.start out) = .ok place)
    (hWritable : ∀ document ∈ documents, before.files.Writable (document.pathIn out)) :
    result = .ok () ∧ Document.putAllIn out before.files documents = .ok after.files := by
  have hDirectory := World.changes_createDirectories_of_walk hNil hSize hWalk
  cases h with
  | printed hOut' => simp [hOut'] at hOut
  | noDirectory _ hCreate => cases (hDirectory.unique hCreate).1
  | written _ hCreate hWritten =>
    obtain rfl := (hDirectory.unique hCreate).2
    exact ⟨rfl, hWritten⟩
  | @interrupted made tree written rest document e _ hCreate hDocuments hWritten hFailed =>
    obtain rfl := (hDirectory.unique hCreate).2
    have hMem : document ∈ documents := by
      rw [hDocuments]
      exact List.mem_append_right written List.mem_cons_self
    obtain ⟨next, hNext⟩ := (Document.writable_of_putAllIn hWritten
      (hWritable document hMem)).exists_writeText document.text
    rw [Document.putIn, hNext] at hFailed
    cases hFailed

end Delivery

end NodeScaffold
