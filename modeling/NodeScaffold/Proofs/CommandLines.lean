import NodeScaffold.Command.Request
import NodeScaffold.Proofs.FileTrees

/-! # Command lines

The reader of arguments takes no empty path, so a request that it gives has an input and an output
path. -/
namespace NodeScaffold
set_option autoImplicit false

namespace Invocation.Given
variable {given given' : Given} {request : Request}

def HasPaths (given : Given) : Prop := ∀ path ∈ given.paths, path ≠ []

theorem HasPaths.addPath (h : given.HasPaths) {path : Text}
    (hPath : given.addPath path = .ok given') : given'.HasPaths := by
  rw [Given.addPath] at hPath
  split at hPath
  · cases hPath
  next hNonempty =>
  split at hPath
  · cases hPath
  cases hPath
  intro other hOther
  obtain hOther | hOther := List.mem_append.mp hOther
  · exact h other hOther
  · rw [List.mem_singleton.mp hOther]
    simpa using hNonempty

theorem HasPaths.addArtifact (h : given.HasPaths) {name : Text}
    (hName : given.addArtifact name = .ok given') : given'.HasPaths := by
  rw [Given.addArtifact] at hName
  split at hName
  · cases hName
    exact h
  · cases hName

theorem HasPaths.addOption (h : given.HasPaths) {option : Text} {name : OptionName}
    (hOption : given.addOption option name = .ok (.inl given')) : given'.HasPaths := by
  cases name <;> simp only [Given.addOption] at hOption <;> try split at hOption
  all_goals cases hOption
  all_goals exact h

theorem addOption_ne_run {option : Text} {name : OptionName} :
    given.addOption option name ≠ .ok (.inr (.run request)) := by
  cases name <;> simp only [Given.addOption] <;> try split
  all_goals simp

theorem HasPaths.addLetters (h : given.HasPaths) {letters : List Char}
    (hLetters : given.addLetters letters = .ok (.inl given')) : given'.HasPaths := by
  induction letters generalizing given with
  | nil =>
    cases hLetters
    exact h
  | cons c letters ih =>
    rw [Given.addLetters] at hLetters
    split at hLetters
    · cases hLetters
    · split at hLetters
      · next hOption => exact ih (h.addOption hOption) hLetters
      · next hSettled => exact absurd hLetters (hSettled _)

theorem addLetters_ne_run {letters : List Char} :
    given.addLetters letters ≠ .ok (.inr (.run request)) := by
  induction letters generalizing given with
  | nil => simp [Given.addLetters]
  | cons c letters ih =>
    rw [Given.addLetters]
    split
    · simp
    · split
      · exact ih
      · exact addOption_ne_run

theorem HasPaths.foldlM_addPath (h : given.HasPaths) {paths : List Text}
    (hPaths : paths.foldlM Given.addPath given = .ok given') : given'.HasPaths := by
  induction paths generalizing given with
  | nil =>
    cases hPaths
    exact h
  | cons path paths ih =>
    obtain ⟨next, hPath, hRest⟩ := exists_of_bind_eq_ok hPaths
    exact ih (h.addPath hPath) hRest

theorem HasPaths.toInvocation (h : given.HasPaths) (hRun : given.toInvocation = .ok (.run request)) :
    request.input ≠ [] ∧ request.out ≠ [] := by
  rw [Given.toInvocation] at hRun
  split at hRun
  · next input out hPaths =>
    cases hRun
    exact ⟨h input (by simp [hPaths]), h out (by simp [hPaths])⟩
  · cases hRun

theorem HasPaths.read (h : given.HasPaths) {arguments : List Text}
    (hRun : given.read arguments = .ok (.run request)) :
    request.input ≠ [] ∧ request.out ≠ [] := by
  fun_induction Given.read given arguments with
  | case1 given => exact h.toInvocation hRun
  | case2 given rest =>
    obtain ⟨given', hPaths, hInvocation⟩ := exists_of_bind_eq_ok hRun
    exact (h.foldlM_addPath hPaths).toInvocation hInvocation
  | case3 | case5 =>
    rename_i ih
    obtain ⟨given', hArtifact, hRest⟩ := exists_of_bind_eq_ok hRun
    exact ih given' (h.addArtifact hArtifact) hRest
  | case4 | case8 | case9 | case10 | case13 => cases hRun
  | case6 =>
    rename_i hOption ih
    exact ih (h.addOption hOption) hRun
  | case7 =>
    rename_i hOption
    cases hRun
    exact absurd hOption addOption_ne_run
  | case11 =>
    rename_i hLetters ih
    exact ih (h.addLetters hLetters) hRun
  | case12 =>
    rename_i hLetters
    cases hRun
    exact absurd hLetters addLetters_ne_run
  | case14 =>
    rename_i ih
    obtain ⟨given', hPath, hRest⟩ := exists_of_bind_eq_ok hRun
    exact ih given' (h.addPath hPath) hRest

end Invocation.Given

/-- The paths of a request are not empty. -/
theorem Invocation.paths_ne_nil {arguments : List Text} {request : Request}
    (h : ofArguments arguments = .ok (.run request)) : request.input ≠ [] ∧ request.out ≠ [] := by
  have hNone : ({} : Given).HasPaths := by simp [Given.HasPaths]
  exact hNone.read h

end NodeScaffold
