import NodeScaffold.Proofs.CommandRuns

/-! # What a command may change

A command that compares, prints or cannot read its input leaves the files alone. Any other makes the
directories that are missing on the way to its output path and writes documents in their order, up to
the first that cannot be written. A comparison succeeds only if every document stands in its file,
and it names those that do not. -/
namespace NodeScaffold
set_option autoImplicit false

/-- The documents were written, and nothing else changed but for the directories that were missing on
the way to the output path. -/
structure Document.WrittenTo (out : Text) (documents : List Document) (before after : FileTree) :
    Prop where
  keeps : before.Keeps after
  texts : ∀ document ∈ documents, document.StandsIn out after
  others : ∀ place,
    (∀ document ∈ documents, after.locate (document.pathIn out) ≠ .ok (.name place)) →
    after.entry? place = before.entry? place ∨
      before.entry? place = none ∧ after.entry? place = some .directory ∧
        ∃ path ∈ out :: Path.ancestors out, after.locate path = .ok (.name place)

/-- Writing stopped at a document: those before it were written, while its own file and those of the
documents after it hold what they held. -/
def Document.InterruptedIn (out : Text) (documents : List Document) (before after : FileTree) :
    Prop :=
  ∃ written document rest e, documents = written ++ document :: rest ∧
    after.writeText (document.pathIn out) document.text = .error e ∧
    WrittenTo out written before after ∧
    ∀ later ∈ document :: rest, ∀ place, after.locate (later.pathIn out) = .ok (.name place) →
      after.contents? place = before.contents? place

/-- The path of the file that a document goes to; on the standard output it has none. -/
def Request.path? (request : Request) (document : Document) : Option Text :=
  if Path.isStandardOutput request.out then none else some (document.pathIn request.out)

namespace Document
variable {out : Text} {document : Document} {documents : List Document}
  {before made after : FileTree} {result : Except FileError Unit}

theorem writtenTo_of_putAllIn
    (hCreate : World.Changes (Host.createDirectories out) before result made)
    (hPut : putAllIn out made documents = .ok after)
    (hDistinct : (documents.map Document.artifact).Nodup) :
    WrittenTo out documents before after := by
  have hMakes := World.makes_of_createDirectories hCreate
  have hKeeps := keeps_of_putAllIn hPut
  refine ⟨hMakes.keeps.trans hKeeps, standsIn_of_putAllIn hPut hDistinct, ?_⟩
  intro place hPlace
  rw [entry?_of_putAllIn hPut hPlace]
  obtain hSame | ⟨hMissing, hMade, path, hPath, hLocate⟩ := hMakes.entry?_eq place
  · exact .inl hSame
  · exact .inr ⟨hMissing, hMade, path, hPath, hKeeps.locate hLocate⟩

/-- A file that no document was written to holds what it held. -/
theorem contents?_of_putAllIn {place : Location}
    (hCreate : World.Changes (Host.createDirectories out) before result made)
    (hPut : putAllIn out made documents = .ok after)
    (hPlace : ∀ document ∈ documents, after.locate (document.pathIn out) ≠ .ok (.name place)) :
    after.contents? place = before.contents? place := by
  rw [← (World.makes_of_createDirectories hCreate).contents?_eq place, FileTree.contents?,
    FileTree.contents?, entry?_of_putAllIn hPut hPlace]

end Document

namespace Delivery
variable {out : Text} {documents : List Document} {before after : World} {check : Bool}
  {result : Except Failure Unit}

theorem files_eq (h : Delivery out documents before check result after)
    (hFiles : check = true ∨ Path.isStandardOutput out = true) : after.files = before.files := by
  cases h with
  | noDirectory hOut | interrupted hOut | written hOut => simp [hOut] at hFiles
  | _ => rfl

theorem check_eq_ok_iff (h : Delivery out documents before true result after) :
    result = .ok () ↔ Path.isStandardOutput out = false ∧
      ∀ document ∈ documents, document.StandsIn out before.files := by
  cases h with
  | nothingToCheck hOut => simp [hOut]
  | upToDate hOut hStand => exact ⟨fun _ => ⟨hOut, hStand⟩, fun _ => rfl⟩
  | outOfDate hOut hCompared hStale =>
    refine ⟨nofun, fun ⟨_, hStand⟩ => ?_⟩
    exact absurd (Document.staleIn_eq_nil_iff.mpr hStand) hStale
  | notCompared hOut hDocuments hCompared hRead hReason =>
    refine ⟨nofun, fun ⟨_, hStand⟩ => ?_⟩
    have hFailed := hStand _ (hDocuments ▸ List.mem_append_right _ List.mem_cons_self)
    exact absurd (hFailed.canBeCompared _ hRead) hReason

/-- A comparison that is not cut short names the stale files. -/
theorem check_eq (h : Delivery out documents before true result after)
    (hOut : Path.isStandardOutput out = false)
    (hCompared : ∀ document ∈ documents, document.CanBeCompared out before.files) :
    result = if Document.staleIn out before.files documents = [] then .ok () else
      .error (.outOfDate ((Document.staleIn out before.files documents).map Document.fileName)) := by
  cases h with
  | nothingToCheck hOut' => simp [hOut'] at hOut
  | upToDate _ hStand => rw [if_pos (Document.staleIn_eq_nil_iff.mpr hStand)]
  | outOfDate _ _ hStale => rw [if_neg hStale]
  | notCompared _ hDocuments _ hRead hReason =>
    have hFailed := hCompared _ (hDocuments ▸ List.mem_append_right _ List.mem_cons_self)
    exact absurd (hFailed _ hRead) hReason

/-- Writing goes through, or it fails at the directory or at a document. -/
theorem write_cases (h : Delivery out documents before false result after)
    (hOut : Path.isStandardOutput out = false)
    (hDistinct : (documents.map Document.artifact).Nodup) :
    (result = .ok () ∧ Document.WrittenTo out documents before.files after.files) ∨
    ∃ failure, result = .error failure ∧
      ((∃ e, World.Changes (Host.createDirectories out) before.files (.error e) after.files) ∧
          Document.WrittenTo out [] before.files after.files ∨
        Document.InterruptedIn out documents before.files after.files) := by
  cases h with
  | printed hOut' => simp [hOut'] at hOut
  | written _ hCreate hWritten =>
    exact .inl ⟨rfl, Document.writtenTo_of_putAllIn hCreate hWritten hDistinct⟩
  | @noDirectory tree e _ hCreate =>
    exact .inr ⟨_, rfl, .inl ⟨⟨e, hCreate⟩,
      Document.writtenTo_of_putAllIn hCreate rfl List.nodup_nil⟩⟩
  | @interrupted made tree written rest document e _ hCreate hDocuments hWritten hFailed =>
    subst hDocuments
    rw [List.map_append, List.nodup_append] at hDistinct
    obtain ⟨hBefore, -, hApart⟩ := hDistinct
    refine .inr ⟨_, rfl, .inr ⟨written, document, rest, e, rfl, hFailed,
      Document.writtenTo_of_putAllIn hCreate hWritten hBefore, ?_⟩⟩
    intro later hLater place hLocate
    refine Document.contents?_of_putAllIn hCreate hWritten fun earlier hEarlier hSame => ?_
    exact hApart _ (List.mem_map_of_mem hEarlier) _ (List.mem_map_of_mem hLater)
      (Document.artifact_eq_of_locate hSame hLocate)

end Delivery

/-- On the standard output no document has a file. -/
theorem Request.forall_path?_iff {request : Request} {source : Text} {selected : List Document}
    {tree : FileTree} (h : request.documents source = .ok selected) :
    (∀ document ∈ selected, ∃ path, request.path? document = some path ∧
        tree.readText path = .ok document.text) ↔
      Path.isStandardOutput request.out = false ∧
        ∀ document ∈ selected, document.StandsIn request.out tree := by
  cases hOut : Path.isStandardOutput request.out with
  | false => simp [path?, hOut, Document.StandsIn]
  | true =>
    obtain ⟨document, others, rfl⟩ := List.exists_cons_of_ne_nil (documents_ne_nil h)
    constructor
    · intro hFiles
      obtain ⟨path, hPath, -⟩ := hFiles document List.mem_cons_self
      simp [path?, hOut] at hPath
    · rintro ⟨hFalse, -⟩
      cases hFalse

namespace Command

/-- A working directory with an empty source, and a directory where a document would go. -/
def obstructed : World where
  files := (FileTree.insert {} ["in.h"] (.file (.text []))).insert
    [Artifact.printer.fileName] .directory

theorem entry?_obstructed (name : Text) : obstructed.files.entry? [name] =
    if name = Artifact.printer.fileName then some .directory
    else if name = "in.h" then some (.file (.text [])) else none := by
  rw [obstructed, FileTree.entry?_insert (List.cons_ne_nil _ _),
    FileTree.entry?_insert (List.cons_ne_nil _ _)]
  simp [FileTree.entry?]

theorem readText_obstructed : obstructed.files.readText "in.h" = .ok [] := by
  refine FileTree.readText_eq_ok_iff.mpr ⟨["in.h"], by with_unfolding_all rfl, ?_, ?_⟩
  · with_unfolding_all decide
  · rw [entry?_obstructed, if_neg (by with_unfolding_all decide), if_pos rfl]

theorem readText_missing_obstructed {document : Document} (h : document.artifact = .builders) :
    obstructed.files.readText (document.pathIn ".") = .error .notFound := by
  have hEntry : obstructed.files.entry? [document.fileName] = none := by
    rw [entry?_obstructed, Document.fileName, h, if_neg (by with_unfolding_all decide),
      if_neg (by with_unfolding_all decide)]
  have hLocate : obstructed.files.locate (document.pathIn ".") = .ok (.name [document.fileName]) :=
    FileTree.locate_join_here document.isFileName_fileName obstructed.files
  rw [FileTree.readText, hLocate]
  simp only [bind, Except.bind, hEntry]

end Command

end NodeScaffold
