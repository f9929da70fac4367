import NodeScaffold.Command.Delivery
import NodeScaffold.Proofs.FileTrees

/-! # What operations and actions do to a world

An operation of the host changes at most the files, and how it does so depends on the files alone.
An action may also tell something on the error output. What it tells is left open here: all that
matters is that nothing else depends on it. -/
namespace NodeScaffold
set_option autoImplicit false

namespace World
variable {α : Type}

/-- In every world with the first files the operation has the result and leaves the second files;
nothing else changes. -/
def Changes (operation : StateM World α) (tree : FileTree) (result : α) (tree' : FileTree) : Prop :=
  ∀ world : World, world.files = tree → operation.run world = (result, { world with files := tree' })

variable {tree tree' tree'' : FileTree}

theorem Changes.pure (result : α) : Changes (pure result) tree result tree := by
  rintro world rfl
  rfl

theorem Changes.bind {β : Type} {operation : StateM World α} {next : α → StateM World β} {a : α}
    {b : β} (h : Changes operation tree a tree') (hNext : Changes (next a) tree' b tree'') :
    Changes (operation >>= next) tree b tree'' := by
  intro world hWorld
  rw [StateT.run_bind, h world hWorld]
  exact hNext { world with files := tree' } rfl

theorem Changes.unique {operation : StateM World α} {a a' : α}
    (h : Changes operation tree a tree') (h' : Changes operation tree a' tree'') :
    a = a' ∧ tree' = tree'' := by
  have hRuns : (a, { files := tree' : World }) = (a', { files := tree'' }) :=
    (h { files := tree } rfl).symm.trans (h' { files := tree } rfl)
  simpa using hRuns

theorem changes_readText (path : Text) :
    Changes (Host.readText path) tree (tree.readText path) tree := by
  rintro world rfl
  rfl

theorem changes_isDirectory (path : Text) :
    Changes (Host.isDirectory path) tree (tree.isDirectory path) tree := by
  rintro world rfl
  rfl

theorem changes_update (change : FileTree → Except FileError FileTree) (tree : FileTree) :
    Changes (update change) tree ((change tree).map fun _ => ())
      ((change tree).toOption.getD tree) := by
  rintro world rfl
  simp only [update, bind_pure_comp, StateT.run_bind, StateT.run_get, pure_bind]
  cases change world.files <;> rfl

theorem changes_update_ok {change : FileTree → Except FileError FileTree}
    (h : change tree = .ok tree') : Changes (update change) tree (.ok ()) tree' := by
  have hChanges := changes_update change tree
  rwa [h] at hChanges

theorem changes_update_error {change : FileTree → Except FileError FileTree} {e : FileError}
    (h : change tree = .error e) : Changes (update change) tree (.error e) tree := by
  have hChanges := changes_update change tree
  rwa [h] at hChanges

theorem changes_ensureDirectory (path : Text) (tree : FileTree) :
    ∃ result tree', Changes (Host.ensureDirectory path) tree result tree' ∧
      FileTree.Makes [path] tree tree' := by
  cases hMake : tree.makeDirectory path with
  | ok tree' =>
    refine ⟨.ok (), tree', (changes_update_ok hMake).bind (.pure _), ?_⟩
    exact .single ⟨path, List.mem_singleton_self path, hMake⟩
  | error e =>
    have hMade : Changes (Host.makeDirectory path) tree (.error e) tree :=
      changes_update_error hMake
    by_cases he : e = .alreadyExists
    · subst he
      exact ⟨_, tree, hMade.bind ((changes_isDirectory path).bind (.pure _)), .refl⟩
    · refine ⟨.error e, tree, hMade.bind ?_, .refl⟩
      split
      · next hExists => exact absurd (Except.error.inj hExists) he
      · exact .pure _

/-- A directory that is there is accepted. -/
theorem changes_ensureDirectory_of_walk {path : Text} {place : Location} (hNil : path ≠ [])
    (hSize : path.byteSize < Path.lengthLimit)
    (hWalk : (Path.parts path).foldlM tree.enter (tree.start path) = .ok place) :
    Changes (Host.ensureDirectory path) tree (.ok ()) tree := by
  obtain ⟨hMake, hDirectory⟩ := FileTree.makeDirectory_of_walk hNil hSize hWalk
  have hMade : Changes (Host.makeDirectory path) tree (.error .alreadyExists) tree :=
    changes_update_error hMake
  refine hMade.bind ((changes_isDirectory path).bind ?_)
  rw [hDirectory]
  exact .pure _

theorem changes_ensureWithin (outer : List Text) (path : Text) (tree : FileTree) :
    ∃ result tree', Changes (Host.ensureWithin outer path) tree result tree' ∧
      FileTree.Makes (path :: outer) tree tree' := by
  induction outer generalizing path tree with
  | nil => exact changes_ensureDirectory path tree
  | cons parent outer ih =>
    obtain ⟨result, first, hFirst, hMakes⟩ := changes_ensureDirectory path tree
    have hMakes : FileTree.Makes (path :: parent :: outer) tree first := hMakes.mono (by simp)
    by_cases hResult : result = .error .notFound
    · subst hResult
      obtain ⟨result, second, hSecond, hOuter⟩ := ih parent first
      have hMakes := hMakes.trans (hOuter.mono (List.subset_cons_self path _))
      cases result with
      | error e => exact ⟨.error e, second, hFirst.bind (hSecond.bind (.pure _)), hMakes⟩
      | ok =>
        obtain ⟨result, last, hLast, hPath⟩ := changes_ensureDirectory path second
        exact ⟨result, last, hFirst.bind (hSecond.bind hLast),
          hMakes.trans (hPath.mono (by simp))⟩
    · refine ⟨result, first, hFirst.bind ?_, hMakes⟩
      split
      · exact absurd rfl hResult
      · exact .pure _

theorem exists_changes_createDirectories (path : Text) (tree : FileTree) :
    ∃ result tree', Changes (Host.createDirectories path) tree result tree' := by
  obtain ⟨result, tree', hChanges, -⟩ := changes_ensureWithin (Path.ancestors path) path tree
  exact ⟨result, tree', hChanges⟩

/-- Only a directory and its ancestors are made, whether or not all of them can be. -/
theorem makes_of_createDirectories {path : Text} {result : Except FileError Unit}
    (h : Changes (Host.createDirectories path) tree result tree') :
    FileTree.Makes (path :: Path.ancestors path) tree tree' := by
  obtain ⟨result', made, hChanges, hMakes⟩ := changes_ensureWithin (Path.ancestors path) path tree
  rw [(h.unique hChanges).2]
  exact hMakes

theorem changes_createDirectories_of_walk {path : Text} {place : Location} (hNil : path ≠ [])
    (hSize : path.byteSize < Path.lengthLimit)
    (hWalk : (Path.parts path).foldlM tree.enter (tree.start path) = .ok place) :
    Changes (Host.createDirectories path) tree (.ok ()) tree := by
  have hEnsure := changes_ensureDirectory_of_walk hNil hSize hWalk
  rw [Host.createDirectories]
  cases Path.ancestors path with
  | nil => exact hEnsure
  | cons parent outer => exact hEnsure.bind (.pure _)

/-- The working directory is always there. -/
theorem changes_createDirectories_here (tree : FileTree) :
    Changes (Host.createDirectories Path.here) tree (.ok ()) tree :=
  changes_createDirectories_of_walk Path.here_ne_nil (by with_unfolding_all decide)
    tree.foldlM_enter_here

end World

namespace Command
variable {α β : Type} {before middle after : World}

/-- The action comes from one world to the other with the result. This does not depend on what is on
the error output, and the action only adds to it. -/
def Does (action : ExceptT Failure (StateM World) α) (before : World)
    (result : Except Failure α) (after : World) : Prop :=
  ∀ errors, ∃ added, action.run.run { before with errors } =
    (result, { after with errors := errors ++ added })

theorem Does.pure (a : α) : Does (pure a) before (.ok a) before :=
  fun errors => ⟨[], by rw [List.append_nil]; rfl⟩

theorem Does.throw (failure : Failure) :
    Does (throw failure : ExceptT Failure (StateM World) α) before (.error failure) before :=
  fun errors => ⟨[], by rw [List.append_nil]; rfl⟩

theorem Does.bind {action : ExceptT Failure (StateM World) α} {a : α}
    {next : α → ExceptT Failure (StateM World) β} {result : Except Failure β}
    (h : Does action before (.ok a) middle) (hNext : Does (next a) middle result after) :
    Does (action >>= next) before result after := by
  intro errors
  obtain ⟨first, hFirst⟩ := h errors
  obtain ⟨second, hSecond⟩ := hNext (errors ++ first)
  refine ⟨first ++ second, ?_⟩
  rw [ExceptT.run_bind, StateT.run_bind, hFirst, ← List.append_assoc]
  exact hSecond

theorem Does.bind_error {action : ExceptT Failure (StateM World) α} {failure : Failure}
    {next : α → ExceptT Failure (StateM World) β} (h : Does action before (.error failure) after) :
    Does (action >>= next) before (.error failure) after := by
  intro errors
  obtain ⟨added, hAdded⟩ := h errors
  refine ⟨added, ?_⟩
  rw [ExceptT.run_bind, StateT.run_bind, hAdded]
  rfl

theorem does_report (line : Text) : Does (Host.report line) before (.ok ()) before :=
  fun errors => ⟨line ++ ['\n'], by rw [← List.append_assoc]; rfl⟩

theorem does_log (filter : Filter) (event : Event) :
    Does (log filter event) before (.ok ()) before := by
  rw [log]
  split
  · exact does_report event.render
  · exact Does.pure ()

theorem does_print (t : Text) :
    Does (Host.print t) before (.ok ()) { before with output := before.output ++ t } :=
  fun errors => ⟨[], by rw [List.append_nil]; rfl⟩

theorem does_forM {items : List β} {action : β → ExceptT Failure (StateM World) Unit}
    (h : ∀ item, Does (action item) before (.ok ()) before) :
    Does (items.forM action) before (.ok ()) before := by
  induction items with
  | nil => exact Does.pure ()
  | cons item items ih => exact (h item).bind ih

theorem does_lift {operation : StateM World α} {a : α} {tree : FileTree}
    (h : World.Changes operation before.files a tree) :
    Does (ExceptT.lift operation) before (.ok a) { before with files := tree } := by
  intro errors
  refine ⟨[], ?_⟩
  rw [List.append_nil, ExceptT.run_lift, StateT.run_map, h { before with errors } rfl]
  rfl

section
variable {operation : StateM World (Except FileError α)} {failure : FileError → Failure}
  {tree : FileTree}

theorem does_attempt_ok {a : α} (h : World.Changes operation before.files (.ok a) tree) :
    Does (attempt failure operation) before (.ok a) { before with files := tree } :=
  (does_lift h).bind (Does.pure a)

theorem does_attempt_error {e : FileError}
    (h : World.Changes operation before.files (.error e) tree) :
    Does (attempt failure operation) before (.error (failure e)) { before with files := tree } :=
  (does_lift h).bind (Does.throw (failure e))

end

end Command

end NodeScaffold
