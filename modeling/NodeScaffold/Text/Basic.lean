/-! # Texts

A text is its list of characters. Sizes and offsets that are shown to the user count bytes of the
UTF-8 form; everything else works on characters. -/
namespace NodeScaffold
set_option autoImplicit false

abbrev Text := List Char

namespace Text

/-- The characters of a string. Irreducible, so that a literal stays a literal inside a proof. -/
@[irreducible] def ofString (s : String) : Text := s.toList

instance : Coe String Text := ⟨ofString⟩

instance : Hashable Text := ⟨fun t => t.foldl (fun h c => mixHash h (hash c.toNat)) 7⟩

def concat (pieces : List Text) : Text := pieces.flatten

def byteSize (t : Text) : Nat := t.foldr (fun c size => c.utf8Size + size) 0

/-- Adds a character to the first piece, which is opened if there is none. -/
def consPiece (c : Char) : List Text → List Text
  | [] => [[c]]
  | piece :: pieces => (c :: piece) :: pieces

/-- The pieces between the separators; there is always at least one. -/
def split (sep : Char) (t : Text) : List Text :=
  t.foldr (fun c pieces => if c = sep then [] :: pieces else consPiece c pieces) [[]]

/-- The pieces that end just after a separator, and what is left over at the end. -/
def splitAfter (sep : Char) (t : Text) : List Text :=
  t.foldr (fun c pieces => if c = sep then [c] :: pieces else consPiece c pieces) []

def join (sep : Text) (items : List Text) : Text := List.intercalate sep items

def dropHead? (t head : Text) : Option Text :=
  if head.isPrefixOf t then some (t.drop head.length) else none

def dropEnd? (t ending : Text) : Option Text :=
  if ending.isSuffixOf t then some (t.take (t.length - ending.length)) else none

/-- Puts a filling in place of every mark that ends a line, together with the line break. -/
def substitute (t mark filling : Text) : Text :=
  (t.splitAfter '\n').flatMap fun line =>
    match line.dropEnd? (mark ++ ['\n']) with
    | some before => before ++ filling
    | none => line

/-- The order of texts by the code points of their characters. -/
def precedes : Text → Text → Bool
  | _, [] => false
  | [], _ :: _ => true
  | c :: t, d :: u => c.toNat < d.toNat || (c = d && precedes t u)

def indentation (depth : Nat) : Text := List.replicate (4 * depth) ' '

def ofNat (n : Nat) : Text := Nat.toDigits 10 n

/-- Inclusive ranges of code points, ascending and disjoint. -/
abbrev Ranges := List (Nat × Nat)

/-- Membership, decided by the first range that does not end before the code point. -/
def Ranges.covers (ranges : Ranges) (n : Nat) : Bool :=
  match ranges.find? (n ≤ ·.2) with
  | some range => range.1 ≤ n
  | none => false

@[simp] theorem byteSize_nil : byteSize [] = 0 := rfl

@[simp] theorem byteSize_cons (c : Char) (t : Text) :
    byteSize (c :: t) = c.utf8Size + byteSize t := rfl

@[simp] theorem byteSize_append (t u : Text) : byteSize (t ++ u) = byteSize t + byteSize u := by
  induction t with
  | nil => simp
  | cons c t ih => simp [ih, Nat.add_assoc]

theorem flatten_consPiece (c : Char) (pieces : List Text) :
    (consPiece c pieces).flatten = c :: pieces.flatten := by
  cases pieces <;> simp [consPiece]

theorem flatten_splitAfter (sep : Char) (t : Text) : (splitAfter sep t).flatten = t := by
  induction t with
  | nil => rfl
  | cons c t ih =>
    have hStep : splitAfter sep (c :: t) =
        if c = sep then [c] :: splitAfter sep t else consPiece c (splitAfter sep t) := rfl
    rw [hStep]
    split
    · simp [ih]
    · rw [flatten_consPiece, ih]

theorem split_ne_nil (sep : Char) (t : Text) : split sep t ≠ [] := by
  cases t with
  | nil => simp [split]
  | cons c t =>
    have hStep : split sep (c :: t) =
        if c = sep then [] :: split sep t else consPiece c (split sep t) := rfl
    rw [hStep]
    split
    · simp
    · cases split sep t <;> simp [consPiece]

end Text

end NodeScaffold
