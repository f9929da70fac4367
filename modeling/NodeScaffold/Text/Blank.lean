import NodeScaffold.Text.Basic

/-! # Blank characters and trimming

The blank characters are those with the property White_Space; ASCII blanks are the smaller part of
them. -/
namespace NodeScaffold.Text
set_option autoImplicit false

def blanks : Ranges := [
  (0x9, 0xD), (0x20, 0x20), (0x85, 0x85), (0xA0, 0xA0), (0x1680, 0x1680), (0x2000, 0x200A),
  (0x2028, 0x2029), (0x202F, 0x202F), (0x205F, 0x205F), (0x3000, 0x3000)]

def isBlank (c : Char) : Bool := blanks.covers c.toNat

def trimStart (t : Text) : Text := t.dropWhile isBlank

def trimEnd (t : Text) : Text :=
  t.foldr (fun c rest => if rest.isEmpty && isBlank c then [] else c :: rest) []

def trim (t : Text) : Text := (trimStart t).trimEnd

def withoutBlanks (t : Text) : Text := t.filter (!isBlank ·)

theorem length_trimStart_le (t : Text) : (trimStart t).length ≤ t.length :=
  (List.dropWhile_sublist _).length_le

theorem length_trimEnd_le (t : Text) : (trimEnd t).length ≤ t.length := by
  induction t with
  | nil => exact Nat.le_refl 0
  | cons c t ih =>
    have hStep : trimEnd (c :: t) =
        if (trimEnd t).isEmpty && isBlank c then [] else c :: trimEnd t := rfl
    rw [hStep]
    split
    · exact Nat.zero_le _
    · simpa using ih

theorem length_trim_le (t : Text) : (trim t).length ≤ t.length :=
  Nat.le_trans (length_trimEnd_le _) (length_trimStart_le t)

end NodeScaffold.Text
