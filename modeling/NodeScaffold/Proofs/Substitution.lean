import NodeScaffold.Proofs.Texts

/-! # Substitution line by line

A substitution goes through the lines of a text one by one, and what it does to a line hangs on the
ending of this line alone. -/
namespace NodeScaffold.Text
set_option autoImplicit false

def unlines (lines : List Text) : Text := lines.flatMap (· ++ ['\n'])

@[simp] theorem unlines_nil : unlines [] = [] := rfl

@[simp] theorem unlines_cons (line : Text) (lines : List Text) :
    unlines (line :: lines) = line ++ '\n' :: unlines lines := by
  simp [unlines]

@[simp] theorem unlines_append (lines lines' : List Text) :
    unlines (lines ++ lines') = unlines lines ++ unlines lines' := List.flatMap_append

theorem unlines_flatMap {α : Type} (items : List α) (f : α → List Text) :
    unlines (items.flatMap f) = items.flatMap fun a => unlines (f a) := by
  rw [unlines, List.flatMap_assoc]
  rfl

/-- An empty line between two texts of whole lines is one more line break. -/
theorem join_unlines (groups : List (List Text)) :
    join ['\n'] (groups.map unlines) = unlines (List.intercalate [[]] groups) := by
  induction groups with
  | nil => rfl
  | cons group groups ih =>
    cases groups with
    | nil => simp [join]
    | cons next groups =>
      rw [List.map_cons, List.map_cons, join, List.intercalate_cons_cons, ← List.map_cons, ← join,
        ih, List.intercalate_cons_cons]
      simp

theorem splitAfter_append_cons {sep : Char} {t : Text} (h : sep ∉ t) (u : Text) :
    splitAfter sep (t ++ sep :: u) = (t ++ [sep]) :: splitAfter sep u := by
  induction t with
  | nil => simp [splitAfter_cons]
  | cons c t ih =>
    obtain ⟨hc, ht⟩ := not_or.mp (mt List.mem_cons.mpr h)
    rw [List.cons_append, splitAfter_cons, if_neg (Ne.symm hc), ih ht]
    rfl

theorem splitAfter_unlines {lines : List Text} (h : ∀ line ∈ lines, '\n' ∉ line) :
    splitAfter '\n' (unlines lines) = lines.map (· ++ ['\n']) := by
  induction lines with
  | nil => rfl
  | cons line lines ih =>
    rw [unlines_cons, splitAfter_append_cons (h line List.mem_cons_self),
      ih fun l hl => h l (List.mem_cons_of_mem _ hl), List.map_cons]

theorem split_unlines {lines : List Text} (h : ∀ line ∈ lines, '\n' ∉ line) :
    split '\n' (unlines lines) = lines ++ [[]] := by
  induction lines with
  | nil => rfl
  | cons line lines ih =>
    rw [unlines_cons, split_append_cons (h line List.mem_cons_self),
      ih fun l hl => h l (List.mem_cons_of_mem _ hl), List.cons_append]

theorem dropEnd?_eq_none {t ending : Text} (h : ¬ending <:+ t) : dropEnd? t ending = none := by
  simp [dropEnd?, h]

theorem dropEnd?_self (t : Text) : dropEnd? t t = some [] := by
  simp [dropEnd?]

theorem dropEnd?_append_right (t ending more : Text) :
    dropEnd? (t ++ more) (ending ++ more) = dropEnd? t ending := by
  have hTake : (t ++ more).take ((t ++ more).length - (ending ++ more).length) =
      t.take (t.length - ending.length) := by
    rw [List.length_append, List.length_append, Nat.add_sub_add_right,
      List.take_append_of_le_length (Nat.sub_le ..)]
  simp only [dropEnd?, List.isSuffixOf_iff_suffix, List.suffix_append_self_iff, hTake]

def substituteLine (mark filling line : Text) : Text :=
  match dropEnd? line mark with
  | some before => before ++ filling
  | none => line ++ ['\n']

theorem substitute_unlines {lines : List Text} (h : ∀ line ∈ lines, '\n' ∉ line)
    (mark filling : Text) :
    substitute (unlines lines) mark filling = lines.flatMap (substituteLine mark filling) := by
  rw [substitute, splitAfter_unlines h, List.flatMap_map]
  congr 1
  funext line
  simp only [dropEnd?_append_right]
  rfl

end NodeScaffold.Text
