import NodeScaffold.Proofs.CommandEffects

/-! # Writing and comparing agree

What a run has written it finds up to date, and what it finds up to date it leaves as it is when it
writes. A path that is a hyphen, however it is spelled, stands for the standard output and for no
directory. -/
namespace NodeScaffold
set_option autoImplicit false

namespace Request
variable {request : Request} {before after : World} {result : Except Failure Unit} {source : Text}
  {selected : List Document}

/-- A run that ends well has read its input. -/
theorem Ends.exists_source (h : request.Ends before (.ok ()) after) :
    ∃ source selected, before.files.readText request.input = .ok source ∧
      request.documents source = .ok selected := by
  cases h with
  | delivered hRead hDocuments => exact ⟨_, _, hRead, hDocuments⟩

theorem Ends.standsIn_of_write (h : request.Ends before (.ok ()) after)
    (hCheck : request.check = false) (hOut : Path.isStandardOutput request.out = false)
    (hRead : before.files.readText request.input = .ok source)
    (hDocuments : request.documents source = .ok selected) :
    ∀ document ∈ selected, document.StandsIn request.out after.files := by
  have hDelivery := h.delivery hRead hDocuments
  rw [hCheck] at hDelivery
  obtain ⟨-, hWritten⟩ | ⟨failure, hFailure, -⟩ :=
    hDelivery.write_cases hOut (nodup_documents hDocuments)
  · exact hWritten.texts
  · cases hFailure

theorem Ends.check_eq_ok_iff (h : request.Ends before result after) (hCheck : request.check = true)
    (hRead : before.files.readText request.input = .ok source)
    (hDocuments : request.documents source = .ok selected) :
    result = .ok () ↔ Path.isStandardOutput request.out = false ∧
      ∀ document ∈ selected, document.StandsIn request.out before.files := by
  have hDelivery := h.delivery hRead hDocuments
  rw [hCheck] at hDelivery
  exact hDelivery.check_eq_ok_iff

/-- Writing what stands there already changes nothing. -/
theorem Ends.rewrite (h : request.Ends before result after) (hCheck : request.check = false)
    (hOut : Path.isStandardOutput request.out = false) (hNil : request.out ≠ [])
    (hRead : before.files.readText request.input = .ok source)
    (hDocuments : request.documents source = .ok selected)
    (hStand : ∀ document ∈ selected, document.StandsIn request.out before.files) :
    result = .ok () ∧ ∀ place, after.files.entry? place = before.files.entry? place := by
  have hDelivery := h.delivery hRead hDocuments
  rw [hCheck] at hDelivery
  -- any of the documents shows the way to the output directory
  obtain ⟨document, hDocument⟩ := List.exists_mem_of_ne_nil selected (documents_ne_nil hDocuments)
  obtain ⟨place, hLocate, -⟩ := Document.standsIn_iff.mp (hStand document hDocument)
  obtain ⟨hSize, outer, hWalk⟩ :=
    FileTree.exists_walk_of_locate_join document.isFileName_fileName hNil hLocate
  obtain ⟨hResult, hPut⟩ := hDelivery.eq_written hOut hNil hSize hWalk fun document hDocument =>
    FileTree.writable_of_readText (hStand document hDocument)
  exact ⟨hResult, Document.entry?_of_putAllIn_of_standsIn hPut hStand⟩

end Request

namespace Command
variable {arguments arguments' : List Text} {request request' : Request}

/-- Two command lines with the same paths: what one has written the other finds up to date, what one
finds up to date the other writes without a change, and if they ask for the same they do the same. A
hyphen in place of a directory gets the documents one after the other. -/
theorem write_check_agree {setting? setting'? : Option Text} {before after world after' : World}
    {code code' : Nat} (hArguments : Invocation.ofArguments arguments = .ok (.run request))
    (hArguments' : Invocation.ofArguments arguments' = .ok (.run request'))
    (hInput : request'.input = request.input) (hOut : request'.out = request.out)
    (hOutcome : outcome setting? arguments before = (code, after))
    (hOutcome' : outcome setting'? arguments' world = (code', after')) :
    (Path.isStandardOutput request.out = false → request.check = false → request'.check = true →
      (∀ artifact, request'.selects artifact → request.selects artifact) →
      world.files = after.files →
      after.files.readText request.input = before.files.readText request.input →
      code = 0 → code' = 0) ∧
    (request.check = true → request'.check = false → request'.selects = request.selects →
      world.files = before.files → code = 0 →
      code' = 0 ∧ ∀ place, after'.files.entry? place = before.files.entry? place) ∧
    (request'.check = request.check → request'.selects = request.selects → world = before →
      code' = code ∧ after'.output = after.output ∧ after'.files = after.files) ∧
    (Path.isStandardOutput request.out = true → request.check = false →
      ∀ source, before.files.readText request.input = .ok source →
      ∃ documents, Document.allOf .standard (Catalog.ofSource .standard source) Artifact.all =
          .ok documents ∧
        documents.map Document.artifact = Artifact.all ∧ code = 0 ∧
        after.output = before.output ++
          (documents.filter (request.selects ·.artifact)).flatMap Document.text) := by
  obtain ⟨result, ended, hEnds⟩ := request.exists_ends before
  obtain ⟨result', ended', hEnds'⟩ := request'.exists_ends world
  obtain ⟨told, hTold⟩ := outcome_eq hArguments hEnds setting?
  obtain ⟨told', hTold'⟩ := outcome_eq hArguments' hEnds' setting'?
  cases hOutcome.symm.trans hTold
  cases hOutcome'.symm.trans hTold'
  simp only [exitCode_eq_zero_iff]
  refine ⟨?_, ?_, ?_, ?_⟩
  · intro hDirectory hWrite hCheck hSelects hWorld hKept hResult
    subst hResult
    obtain ⟨source, selected, hRead, hDocuments⟩ := hEnds.exists_source
    obtain ⟨selected', hDocuments'⟩ := request'.exists_documents source
    have hRead' : world.files.readText request'.input = .ok source := by
      rw [hInput, hWorld, hKept, hRead]
    have hStand := hEnds.standsIn_of_write hWrite hDirectory hRead hDocuments
    rw [hEnds'.check_eq_ok_iff hCheck hRead' hDocuments', hOut, hWorld]
    exact ⟨hDirectory, fun document hDocument =>
      hStand document (Request.documents_subset hDocuments hDocuments' hSelects hDocument)⟩
  · intro hCheck hWrite hSelects hWorld hResult
    subst hResult
    obtain ⟨source, selected, hRead, hDocuments⟩ := hEnds.exists_source
    obtain ⟨hDirectory, hStand⟩ := (hEnds.check_eq_ok_iff hCheck hRead hDocuments).mp rfl
    have hRead' : world.files.readText request'.input = .ok source := by rw [hInput, hWorld, hRead]
    have hDocuments' : request'.documents source = .ok selected := by
      rw [Request.documents, hSelects]
      exact hDocuments
    rw [← hOut] at hDirectory hStand
    rw [← hWorld] at hStand ⊢
    exact hEnds'.rewrite hWrite hDirectory (Invocation.paths_ne_nil hArguments').2 hRead' hDocuments'
      hStand
  · rintro hCheck hSelects rfl
    obtain ⟨again, hSame⟩ :=
      outcome_eq hArguments' (hEnds.congr hInput hOut hCheck hSelects) setting'?
    obtain ⟨hCode, hWorlds⟩ := Prod.mk.inj (hTold'.symm.trans hSame)
    obtain ⟨hFiles, hOutput, -⟩ := World.mk.inj hWorlds
    exact ⟨hCode, hOutput, hFiles⟩
  · intro hHyphen hPrint source hRead
    obtain ⟨selected, hDocuments⟩ := request.exists_documents source
    obtain ⟨documents, hAll, hArtifacts, rfl⟩ := Request.exists_allOf_of_documents hDocuments
    have hDelivery := hEnds.delivery hRead hDocuments
    rw [hPrint] at hDelivery
    refine ⟨documents, hAll, hArtifacts, ?_⟩
    cases hDelivery with
    | printed => exact ⟨rfl, rfl⟩
    | noDirectory hOut | interrupted hOut | written hOut => cases hHyphen.symm.trans hOut

/-- Documents that no directory obstructs are written next to the source, which stays as it is. -/
theorem exists_outcome_obstructed : ∃ after,
    outcome none ["--only", "toucher", "--only", "builders", "in.h", "."] obstructed = (0, after) ∧
      after.files.readText "in.h" = .ok [] := by
  let request : Request := { input := "in.h", out := ".", only := [.toucher, .builders] }
  have hArguments : Invocation.ofArguments
      ["--only", "toucher", "--only", "builders", "in.h", "."] = .ok (.run request) := by
    decide +kernel
  obtain ⟨result, ended, hEnds⟩ := request.exists_ends obstructed
  obtain ⟨told, hTold⟩ := outcome_eq hArguments hEnds none
  obtain ⟨selected, hDocuments⟩ := request.exists_documents []
  have hLocate (document : Document) :
      obstructed.files.locate (document.pathIn ".") = .ok (.name [document.fileName]) :=
    FileTree.locate_join_here document.isFileName_fileName obstructed.files
  have hWritable : ∀ document ∈ selected, obstructed.files.Writable (document.pathIn ".") := by
    intro document hDocument
    refine ⟨_, hLocate document, document.isFileName_fileName.endsInSlash_join ".", ?_⟩
    have hMem : document.artifact ∈ request.artifacts := by
      rw [← Request.map_artifact_documents hDocuments]
      exact List.mem_map_of_mem hDocument
    have hPrinter : document.fileName ≠ Artifact.printer.fileName := by
      intro hName
      rw [Artifact.fileName_injective hName, Request.mem_artifacts_iff] at hMem
      revert hMem
      decide
    rw [entry?_obstructed, if_neg hPrinter]
    split <;> simp
  obtain ⟨rfl, hPut⟩ := (hEnds.delivery readText_obstructed hDocuments).eq_written
    (by with_unfolding_all decide) Path.here_ne_nil (by with_unfolding_all decide)
    obstructed.files.foldlM_enter_here hWritable
  have hKeeps := Document.keeps_of_putAllIn hPut
  have hSource : obstructed.files.locate "in.h" = .ok (.name ["in.h"]) := by with_unfolding_all rfl
  refine ⟨_, hTold, FileTree.readText_eq_ok_iff.mpr ⟨["in.h"], hKeeps.locate hSource,
    by with_unfolding_all decide, ?_⟩⟩
  rw [Document.entry?_of_putAllIn hPut, entry?_obstructed, if_neg (by with_unfolding_all decide),
    if_pos rfl]
  intro document _ hSame
  have hPlace := (hKeeps.locate (hLocate document)).symm.trans hSame
  have hName : document.artifact.fileName = "in.h" :=
    (List.cons.inj (FileTree.Place.name.inj (Except.ok.inj hPlace))).1
  revert hName
  cases document.artifact <;> with_unfolding_all decide

/-- What was written is up to date for a narrower selection, it can be written again, and it is the
same in whatever order it is asked for; the standard output gets the documents of the empty source. -/
theorem write_check_agree_obstructed :
    ∃ after swapped compared rewritten printed documents,
      outcome none ["--only", "toucher", "--only", "builders", "in.h", "."] obstructed =
        (0, after) ∧
      outcome none ["--only", "builders", "--only=toucher", "in.h", ".", "-v"] obstructed =
        (0, swapped) ∧
      swapped.files = after.files ∧
      outcome none ["--check", "--only", "builders", "in.h", "."] after = (0, compared) ∧
      outcome none ["--only", "builders", "--only", "builders", "in.h", "."] after =
        (0, rewritten) ∧
      (∀ place, rewritten.files.entry? place = after.files.entry? place) ∧
      outcome none ["in.h", "-"] obstructed = (0, printed) ∧
      Document.allOf .standard (Catalog.ofSource .standard []) Artifact.all = .ok documents ∧
      printed.output = documents.flatMap Document.text := by
  have hBoth : Invocation.ofArguments ["--only", "toucher", "--only", "builders", "in.h", "."] =
      .ok (.run { input := "in.h", out := ".", only := [.toucher, .builders] }) := by
    decide +kernel
  have hSwapped : Invocation.ofArguments ["--only", "builders", "--only=toucher", "in.h", ".", "-v"] =
      .ok (.run { input := "in.h", out := ".", only := [.builders, .toucher], verbose := true }) := by
    decide +kernel
  have hCompared : Invocation.ofArguments ["--check", "--only", "builders", "in.h", "."] =
      .ok (.run { input := "in.h", out := ".", only := [.builders], check := true }) := by
    decide +kernel
  have hTwice : Invocation.ofArguments ["--only", "builders", "--only", "builders", "in.h", "."] =
      .ok (.run { input := "in.h", out := ".", only := [.builders, .builders] }) := by
    decide +kernel
  have hHyphen : Invocation.ofArguments ["in.h", "-"] =
      .ok (.run { input := "in.h", out := "-" }) := by
    decide +kernel
  obtain ⟨after, hWrite, hSource⟩ := exists_outcome_obstructed
  rcases hSwap : outcome none ["--only", "builders", "--only=toucher", "in.h", ".", "-v"] obstructed
    with ⟨code, swapped⟩
  obtain ⟨-, -, hSame, -⟩ := write_check_agree hBoth hSwapped rfl rfl hWrite hSwap
  obtain ⟨rfl, -, hFiles⟩ := hSame rfl (by funext artifact; cases artifact <;> decide) rfl
  rcases hCompare : outcome none ["--check", "--only", "builders", "in.h", "."] after
    with ⟨code, compared⟩
  obtain ⟨hUpToDate, -⟩ := write_check_agree hBoth hCompared rfl rfl hWrite hCompare
  obtain rfl : code = 0 := hUpToDate (by with_unfolding_all decide) rfl rfl
    (by intro artifact; cases artifact <;> decide) rfl (hSource.trans readText_obstructed.symm) rfl
  rcases hRewrite : outcome none ["--only", "builders", "--only", "builders", "in.h", "."] after
    with ⟨code, rewritten⟩
  obtain ⟨-, hUnchanged, -⟩ := write_check_agree hCompared hTwice rfl rfl hCompare hRewrite
  obtain ⟨rfl, hEntries⟩ :=
    hUnchanged rfl rfl (by funext artifact; cases artifact <;> decide) rfl rfl
  rcases hPrint : outcome none ["in.h", "-"] obstructed with ⟨code, printed⟩
  obtain ⟨-, -, -, hPrinted⟩ := write_check_agree hHyphen hHyphen rfl rfl hPrint hPrint
  obtain ⟨documents, hAll, -, rfl, hOutput⟩ :=
    hPrinted (by with_unfolding_all decide) rfl [] readText_obstructed
  refine ⟨after, swapped, compared, rewritten, printed, documents, hWrite, rfl, hFiles, hCompare,
    hRewrite, hEntries, rfl, hAll, ?_⟩
  rw [hOutput, List.filter_eq_self.mpr (by simp [Request.selects])]
  rfl

end Command

end NodeScaffold
