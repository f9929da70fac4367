import Mathlib.Data.List.Nodup
import Mathlib.Logic.Relation
import NodeScaffold.Document.Artifact
import NodeScaffold.Files.Tree
import NodeScaffold.Proofs.Concatenation

/-! # What operations do to a file tree

Every operation that succeeds changes the entry at one location at most, and none of them takes a
directory away. So a path that leads somewhere leads there ever after, and what was written can be
read back for as long as nothing else is written to the same location. -/
namespace NodeScaffold
set_option autoImplicit false

theorem exists_of_bind_eq_ok {ε α β : Type} {x : Except ε α} {f : α → Except ε β} {b : β}
    (h : x >>= f = .ok b) : ∃ a, x = .ok a ∧ f a = .ok b := by
  cases x with
  | error e => cases h
  | ok a => exact ⟨a, rfl, h⟩

namespace Path

/-- A name that a file in a directory can have: one part, no way to another directory. -/
structure IsFileName (name : Text) : Prop where
  ne_nil : name ≠ []
  slash : '/' ∉ name
  here : name ≠ Path.here
  above : name ≠ Path.above
  short : name.byteSize ≤ nameLimit

theorem parts_append_slash (path rest : Text) :
    parts (path ++ '/' :: rest) = parts path ++ parts rest := by
  rw [parts, Text.split_append_sep, List.filter_append]
  rfl

theorem exists_eq_of_endsInSlash {path : Text} (h : endsInSlash path) :
    ∃ before, path = before ++ ['/'] := by
  simpa [endsInSlash] using List.getLast?_eq_some_iff.mp (of_decide_eq_true h)

theorem here_ne_nil : here ≠ [] := by with_unfolding_all decide

theorem isAbsolute_join {directory : Text} (h : directory ≠ []) (name : Text) :
    isAbsolute (join directory name) = isAbsolute directory := by
  obtain ⟨c, rest, rfl⟩ := List.exists_cons_of_ne_nil h
  rw [join]
  split <;> rfl

namespace IsFileName
variable {name : Text} (h : IsFileName name)
include h

theorem parts_eq : parts name = [name] := by
  rw [parts, Text.split_of_notMem h.slash]
  simp [h.ne_nil]

theorem parts_join (directory : Text) : parts (join directory name) = parts directory ++ [name] := by
  rw [join]
  split
  · next hSlash =>
    obtain ⟨before, rfl⟩ := exists_eq_of_endsInSlash hSlash
    have hNil : parts [] = [] := rfl
    rw [List.append_assoc, List.singleton_append, parts_append_slash, parts_append_slash,
      h.parts_eq, hNil, List.append_nil]
  · rw [parts_append_slash, h.parts_eq]

theorem endsInSlash_join (directory : Text) : endsInSlash (join directory name) = false := by
  obtain ⟨before, c, hName⟩ := (List.eq_nil_or_concat name).resolve_left h.ne_nil
  have hc : c ≠ '/' := by
    rintro rfl
    exact h.slash (by simp [hName])
  rw [List.concat_eq_append] at hName
  rw [join, hName]
  split
  · rw [endsInSlash, ← List.append_assoc, List.getLast?_concat]
    simpa using hc
  · rw [endsInSlash, ← List.cons_append, ← List.append_assoc, List.getLast?_concat]
    simpa using hc

theorem byteSize_lt_byteSize_join (directory : Text) :
    directory.byteSize < (join directory name).byteSize := by
  obtain ⟨c, rest, hName⟩ := List.exists_cons_of_ne_nil h.ne_nil
  have hc := Char.utf8Size_pos c
  rw [join, hName]
  split <;> simp only [Text.byteSize_append, Text.byteSize_cons] <;> omega

end IsFileName

end Path

theorem Artifact.isFileName_fileName (artifact : Artifact) : Path.IsFileName artifact.fileName := by
  cases artifact <;> constructor <;> with_unfolding_all decide

theorem Artifact.mem_all (artifact : Artifact) : artifact ∈ all := by
  cases artifact <;> decide

theorem Artifact.fileName_injective {artifact artifact' : Artifact}
    (h : artifact.fileName = artifact'.fileName) : artifact = artifact' := by
  have hDistinct : (all.map fileName).Nodup := by with_unfolding_all decide
  exact List.inj_on_of_nodup_map hDistinct artifact.mem_all artifact'.mem_all h

namespace FileTree
variable {tree tree' tree'' : FileTree} {place : Location} {path t : Text}

def contents? (tree : FileTree) (place : Location) : Option Contents :=
  match tree.entry? place with
  | some (.file contents) => some contents
  | _ => none

theorem entry?_insert (h : place ≠ []) (entry : Entry) (place' : Location) :
    FileTree.entry? (tree.insert place entry) place' =
      if place' = place then some entry else tree.entry? place' := by
  cases place' with
  | nil => rw [if_neg (Ne.symm h)]; rfl
  | cons name outer =>
    simp only [insert, entry?, Std.HashMap.getElem?_insert, beq_iff_eq]
    exact if_congr eq_comm rfl rfl

/-- The second tree has the directories of the first, and relative paths start at the same place. -/
structure Keeps (tree tree' : FileTree) : Prop where
  home : tree'.home = tree.home
  directories : ∀ place, tree.entry? place = some .directory → tree'.entry? place = some .directory

theorem Keeps.refl (tree : FileTree) : Keeps tree tree := ⟨rfl, fun _ h => h⟩

theorem Keeps.trans (h : Keeps tree tree') (h' : Keeps tree' tree'') : Keeps tree tree'' :=
  ⟨h'.home.trans h.home, fun place hPlace => h'.directories place (h.directories place hPlace)⟩

theorem keeps_insert (h : place ≠ []) {entry : Entry}
    (hEntry : tree.entry? place = some .directory → entry = .directory) :
    Keeps tree (tree.insert place entry) := by
  refine ⟨rfl, fun place' hPlace => ?_⟩
  rw [entry?_insert h]
  split
  · next hSame => rw [hEntry (hSame ▸ hPlace)]
  · exact hPlace

section
variable (h : Keeps tree tree')
include h

theorem Keeps.enter {place' : Location} {part : Text} (hEnter : tree.enter place part = .ok place') :
    tree'.enter place part = .ok place' := by
  rw [FileTree.enter] at hEnter ⊢
  split at hEnter
  · next hHere => rw [if_pos hHere]; exact hEnter
  · next hHere =>
    rw [if_neg hHere]
    split at hEnter
    · next hAbove => rw [if_pos hAbove]; exact hEnter
    · next hAbove =>
      rw [if_neg hAbove]
      split at hEnter
      · cases hEnter
      · next hSize =>
        rw [if_neg hSize]
        split at hEnter
        · next hDirectory => rw [h.directories _ hDirectory]; exact hEnter
        · cases hEnter
        · cases hEnter

theorem Keeps.foldlM_enter {parts : List Text} {place' : Location}
    (hEnter : parts.foldlM tree.enter place = .ok place') :
    parts.foldlM tree'.enter place = .ok place' := by
  induction parts generalizing place with
  | nil => exact hEnter
  | cons part parts ih =>
    obtain ⟨next, hFirst, hRest⟩ := exists_of_bind_eq_ok hEnter
    rw [List.foldlM_cons, h.enter hFirst]
    exact ih hRest

theorem Keeps.start (path : Text) : tree'.start path = tree.start path := by
  rw [FileTree.start, FileTree.start, h.home]

end

/-- A path leads to a name if its last part is one and the parts before it lead to a directory. -/
theorem locate_eq_name_iff : tree.locate path = .ok (.name place) ↔
    path ≠ [] ∧ path.byteSize < Path.lengthLimit ∧ ∃ before last directory,
      Path.parts path = before ++ [last] ∧ before.foldlM tree.enter (tree.start path) = .ok directory ∧
      last ≠ Path.here ∧ last ≠ Path.above ∧ last.byteSize ≤ Path.nameLimit ∧
      place = last :: directory := by
  constructor
  · intro h
    rw [locate] at h
    split_ifs at h with hNil hSize
    rw [List.isEmpty_iff] at hNil
    refine ⟨hNil, Nat.lt_of_not_le hSize, ?_⟩
    obtain hParts | ⟨before, last, hParts⟩ := List.eq_nil_or_concat (Path.parts path)
    · rw [hParts] at h
      cases h
    rw [List.concat_eq_append] at hParts
    rw [hParts, List.getLast?_concat, List.dropLast_concat] at h
    obtain ⟨directory, hWalk, h⟩ := exists_of_bind_eq_ok h
    by_cases hHere : last = Path.here
    · rw [if_pos hHere] at h
      cases h
    by_cases hAbove : last = Path.above
    · rw [if_neg hHere, if_pos hAbove] at h
      cases h
    by_cases hLast : Path.nameLimit < last.byteSize
    · rw [if_neg hHere, if_neg hAbove, if_pos hLast] at h
      cases h
    rw [if_neg hHere, if_neg hAbove, if_neg hLast] at h
    cases h
    exact ⟨before, last, directory, hParts, hWalk, hHere, hAbove, Nat.le_of_not_lt hLast, rfl⟩
  · rintro ⟨hNil, hSize, before, last, directory, hParts, hWalk, hHere, hAbove, hLast, rfl⟩
    rw [locate, if_neg (by simpa using hNil), if_neg (Nat.not_le_of_lt hSize), hParts,
      List.getLast?_concat, List.dropLast_concat, hWalk]
    simp only [bind, Except.bind]
    rw [if_neg hHere, if_neg hAbove, if_neg (Nat.not_lt_of_le hLast)]

/-- A path that leads to a name leads there in every tree that keeps the directories. -/
theorem Keeps.locate (h : Keeps tree tree') (hLocate : tree.locate path = .ok (.name place)) :
    tree'.locate path = .ok (.name place) := by
  rw [locate_eq_name_iff] at hLocate ⊢
  obtain ⟨hNil, hSize, before, last, directory, hParts, hWalk, hLast⟩ := hLocate
  refine ⟨hNil, hSize, before, last, directory, hParts, ?_, hLast⟩
  rw [h.start]
  exact h.foldlM_enter hWalk

/-- A name stands in some directory, so its location is not the root. -/
theorem ne_nil_of_locate (h : tree.locate path = .ok (.name place)) : place ≠ [] := by
  obtain ⟨-, -, before, last, directory, -, -, -, -, -, rfl⟩ := locate_eq_name_iff.mp h
  exact List.cons_ne_nil last directory

theorem readText_eq_ok_iff : tree.readText path = .ok t ↔
    ∃ place, tree.locate path = .ok (.name place) ∧ Path.endsInSlash path = false ∧
      tree.entry? place = some (.file (.text t)) := by
  rw [readText]
  cases hLocate : tree.locate path with
  | error e => simp [bind, Except.bind]
  | ok found =>
    cases found with
    | directory place => simp [bind, Except.bind]
    | name place =>
      simp only [bind, Except.bind, Except.ok.injEq, Place.name.injEq, exists_eq_left']
      cases hEntry : tree.entry? place with
      | none => simp
      | some entry =>
        cases entry with
        | directory => simp
        | file contents =>
          cases hSlash : Path.endsInSlash path <;> cases contents <;> simp

theorem writeText_eq_ok_iff : tree.writeText path t = .ok tree' ↔
    ∃ place, tree.locate path = .ok (.name place) ∧ Path.endsInSlash path = false ∧
      tree.entry? place ≠ some .directory ∧ tree' = tree.insert place (.file (.text t)) := by
  rw [writeText]
  cases hLocate : tree.locate path with
  | error e => simp [bind, Except.bind]
  | ok found =>
    cases found with
    | directory place => simp [bind, Except.bind]
    | name place =>
      simp only [bind, Except.bind, Except.ok.injEq, Place.name.injEq, exists_eq_left']
      cases hEntry : tree.entry? place with
      | none => cases hSlash : Path.endsInSlash path <;> simp [eq_comm]
      | some entry =>
        cases entry with
        | directory => simp
        | file contents => cases hSlash : Path.endsInSlash path <;> simp [eq_comm]

theorem makeDirectory_eq_ok_iff : tree.makeDirectory path = .ok tree' ↔
    ∃ place, tree.locate path = .ok (.name place) ∧ tree.entry? place = none ∧
      tree' = tree.insert place .directory := by
  rw [makeDirectory]
  cases hLocate : tree.locate path with
  | error e => simp [bind, Except.bind]
  | ok found =>
    cases found with
    | directory place => simp [bind, Except.bind]
    | name place =>
      simp only [bind, Except.bind, Except.ok.injEq, Place.name.injEq, exists_eq_left']
      cases hEntry : tree.entry? place <;> simp [eq_comm]

theorem keeps_of_writeText (h : tree.writeText path t = .ok tree') : Keeps tree tree' := by
  obtain ⟨place, hLocate, -, hEntry, rfl⟩ := writeText_eq_ok_iff.mp h
  exact keeps_insert (ne_nil_of_locate hLocate) fun hDirectory => absurd hDirectory hEntry

theorem keeps_of_makeDirectory (h : tree.makeDirectory path = .ok tree') : Keeps tree tree' := by
  obtain ⟨place, hLocate, -, rfl⟩ := makeDirectory_eq_ok_iff.mp h
  exact keeps_insert (ne_nil_of_locate hLocate) fun _ => rfl

def Writable (tree : FileTree) (path : Text) : Prop :=
  ∃ place, tree.locate path = .ok (.name place) ∧ Path.endsInSlash path = false ∧
    tree.entry? place ≠ some .directory

theorem Writable.exists_writeText (h : tree.Writable path) (t : Text) :
    ∃ tree', tree.writeText path t = .ok tree' := by
  obtain ⟨place, hLocate, hSlash, hEntry⟩ := h
  exact ⟨_, writeText_eq_ok_iff.mpr ⟨place, hLocate, hSlash, hEntry, rfl⟩⟩

theorem Writable.of_writeText {other : Text} (h : tree.Writable path)
    (hWrite : tree.writeText other t = .ok tree') : tree'.Writable path := by
  obtain ⟨place, hLocate, hSlash, hEntry⟩ := h
  refine ⟨place, (keeps_of_writeText hWrite).locate hLocate, hSlash, ?_⟩
  obtain ⟨place', hLocate', -, -, rfl⟩ := writeText_eq_ok_iff.mp hWrite
  rw [entry?_insert (ne_nil_of_locate hLocate')]
  split
  · simp
  · exact hEntry

theorem writable_of_readText (h : tree.readText path = .ok t) : tree.Writable path := by
  obtain ⟨place, hLocate, hSlash, hEntry⟩ := readText_eq_ok_iff.mp h
  exact ⟨place, hLocate, hSlash, by simp [hEntry]⟩

theorem foldlM_enter_here (tree : FileTree) :
    (Path.parts Path.here).foldlM tree.enter (tree.start Path.here) = .ok tree.home := by
  have hParts : Path.parts Path.here = [Path.here] := by with_unfolding_all decide
  have hStart : tree.start Path.here = tree.home := by with_unfolding_all rfl
  rw [hParts, hStart, List.foldlM_cons, enter, if_pos rfl]
  rfl

section
variable {directory name : Text} (hName : Path.IsFileName name)
include hName

theorem head?_of_locate_join (h : tree.locate (Path.join directory name) = .ok (.name place)) :
    place.head? = some name := by
  obtain ⟨-, -, before, last, outer, hParts, -, -, -, -, rfl⟩ := locate_eq_name_iff.mp h
  rw [hName.parts_join] at hParts
  rw [(List.append_singleton_inj.mp hParts).2]
  rfl

/-- Files of the working directory can be found there. -/
theorem locate_join_here (tree : FileTree) :
    tree.locate (Path.join Path.here name) = .ok (.name (name :: tree.home)) := by
  have hJoin : Path.join Path.here name = '.' :: '/' :: name := by
    simp [Path.join, Path.here, Path.endsInSlash, Text.ofString]
  have hSize : Text.byteSize ('.' :: '/' :: name) < Path.lengthLimit := by
    have hShort := hName.short
    simp only [Text.byteSize_cons, Path.nameLimit, Path.lengthLimit] at hShort ⊢
    have hDot : ('.').utf8Size = 1 := rfl
    have hSlash : ('/').utf8Size = 1 := rfl
    omega
  have hStart : tree.start (Path.join Path.here name) = tree.start Path.here := by
    rw [start, Path.isAbsolute_join Path.here_ne_nil, start]
  refine locate_eq_name_iff.mpr ⟨hJoin ▸ List.cons_ne_nil _ _, hJoin ▸ hSize, Path.parts Path.here,
    name, tree.home, hName.parts_join Path.here, ?_, hName.here, hName.above, hName.short, rfl⟩
  rw [hStart, foldlM_enter_here]

/-- The way to a file leads through its directory. -/
theorem exists_walk_of_locate_join (hDirectory : directory ≠ [])
    (h : tree.locate (Path.join directory name) = .ok (.name place)) :
    directory.byteSize < Path.lengthLimit ∧
      ∃ outer, (Path.parts directory).foldlM tree.enter (tree.start directory) = .ok outer := by
  obtain ⟨-, hSize, before, last, outer, hParts, hWalk, -⟩ := locate_eq_name_iff.mp h
  rw [hName.parts_join] at hParts
  rw [start, Path.isAbsolute_join hDirectory, ← (List.append_singleton_inj.mp hParts).1] at hWalk
  exact ⟨(hName.byteSize_lt_byteSize_join directory).trans hSize, outer, hWalk⟩

end

/-- A path whose parts can all be entered leads to a directory. -/
theorem locate_of_walk (hNil : path ≠ []) (hSize : path.byteSize < Path.lengthLimit)
    (hWalk : (Path.parts path).foldlM tree.enter (tree.start path) = .ok place) :
    tree.locate path = .ok (.directory place) ∨
      tree.locate path = .ok (.name place) ∧ tree.entry? place = some .directory := by
  rw [locate, if_neg (by simpa using hNil), if_neg (Nat.not_le_of_lt hSize)]
  obtain hParts | ⟨before, last, hParts⟩ := List.eq_nil_or_concat (Path.parts path)
  · rw [hParts] at hWalk ⊢
    cases hWalk
    exact .inl rfl
  rw [List.concat_eq_append] at hParts
  rw [hParts, List.foldlM_append] at hWalk
  rw [hParts, List.getLast?_concat, List.dropLast_concat]
  obtain ⟨directory, hBefore, hLast⟩ := exists_of_bind_eq_ok hWalk
  have hEnter : tree.enter directory last = .ok place := (bind_pure _).symm.trans hLast
  rw [hBefore]
  rw [enter] at hEnter
  simp only [bind, Except.bind]
  split at hEnter
  · next hHere =>
    rw [if_pos hHere]
    cases hEnter
    exact .inl rfl
  next hHere =>
  rw [if_neg hHere]
  split at hEnter
  · next hAbove =>
    rw [if_pos hAbove]
    cases hEnter
    exact .inl rfl
  next hAbove =>
  rw [if_neg hAbove]
  split at hEnter
  · cases hEnter
  next hLast =>
  rw [if_neg hLast]
  split at hEnter
  · next hEntry =>
    cases hEnter
    exact .inr ⟨rfl, hEntry⟩
  · cases hEnter
  · cases hEnter

/-- A directory that can be walked into need not be made. -/
theorem makeDirectory_of_walk (hNil : path ≠ []) (hSize : path.byteSize < Path.lengthLimit)
    (hWalk : (Path.parts path).foldlM tree.enter (tree.start path) = .ok place) :
    tree.makeDirectory path = .error .alreadyExists ∧ tree.isDirectory path = true := by
  rw [makeDirectory, isDirectory]
  obtain hLocate | ⟨hLocate, hEntry⟩ := locate_of_walk hNil hSize hWalk
  · rw [hLocate]
    exact ⟨rfl, rfl⟩
  · rw [hLocate]
    simp [bind, Except.bind, hEntry]

/-- The second tree comes from the first by making directories at some of the paths. -/
def Makes (paths : List Text) : FileTree → FileTree → Prop :=
  Relation.ReflTransGen fun tree tree' => ∃ path ∈ paths, tree.makeDirectory path = .ok tree'

namespace Makes
variable {paths : List Text}

theorem keeps (h : Makes paths tree tree') : Keeps tree tree' := by
  induction h with
  | refl => exact Keeps.refl tree
  | tail _ hStep ih =>
    obtain ⟨path, -, hMake⟩ := hStep
    exact ih.trans (keeps_of_makeDirectory hMake)

/-- What is made is a directory where nothing was, at a place that one of the paths leads to. -/
theorem entry?_eq (h : Makes paths tree tree') (place : Location) :
    tree'.entry? place = tree.entry? place ∨
      tree.entry? place = none ∧ tree'.entry? place = some .directory ∧
        ∃ path ∈ paths, tree'.locate path = .ok (.name place) := by
  induction h with
  | refl => exact .inl rfl
  | @tail middle last hBefore hStep ih =>
    obtain ⟨path, hPath, hMake⟩ := hStep
    have hKeeps := keeps_of_makeDirectory hMake
    obtain ⟨made, hLocate, hMissing, hInsert⟩ := makeDirectory_eq_ok_iff.mp hMake
    have hEntry : last.entry? place =
        if place = made then some .directory else middle.entry? place := by
      rw [hInsert, entry?_insert (ne_nil_of_locate hLocate)]
    by_cases hPlace : place = made
    · subst hPlace
      rw [if_pos rfl] at hEntry
      right
      refine ⟨?_, hEntry, path, hPath, hKeeps.locate hLocate⟩
      obtain hSame | ⟨hNone, -⟩ := ih
      · rw [← hSame, hMissing]
      · exact hNone
    · rw [if_neg hPlace] at hEntry
      rw [hEntry]
      obtain hSame | ⟨hNone, hMade, other, hOther, hFound⟩ := ih
      · exact .inl hSame
      · exact .inr ⟨hNone, hMade, other, hOther, hKeeps.locate hFound⟩

theorem contents?_eq (h : Makes paths tree tree') (place : Location) :
    tree'.contents? place = tree.contents? place := by
  rw [contents?, contents?]
  obtain hSame | ⟨hNone, hMade, -⟩ := h.entry?_eq place
  · rw [hSame]
  · rw [hNone, hMade]

theorem mono {paths' : List Text} (h : Makes paths tree tree') (hPaths : paths ⊆ paths') :
    Makes paths' tree tree' :=
  Relation.ReflTransGen.mono
    (fun _ _ ⟨path, hPath, hMake⟩ => ⟨path, hPaths hPath, hMake⟩) tree tree' h

end Makes

end FileTree

end NodeScaffold
