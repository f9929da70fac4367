import NodeScaffold.Text.Basic

/-! # Blocks of code

A block is a sequence of lines. A line may open a deeper level for the lines after it, or close the
level it would stand on. How deep the lines stand is read off from there, and the depth at which
the whole block is placed is chosen when it is written out. -/
namespace NodeScaffold
set_option autoImplicit false

inductive Shift where
  | stay
  | deeper
  | shallower
deriving DecidableEq, Repr

structure CodeLine where
  shift : Shift
  text : Text
deriving DecidableEq

namespace CodeLine

def line (pieces : List Text) : CodeLine := ⟨.stay, Text.concat pieces⟩

def opening (pieces : List Text) : CodeLine := ⟨.deeper, Text.concat pieces⟩

/-- A line that stands one level less deep than the line before it, with all that follow. -/
def closing (pieces : List Text) : CodeLine := ⟨.shallower, Text.concat pieces⟩

def blank : CodeLine := line []

end CodeLine

structure Row where
  depth : Nat
  text : Text
deriving DecidableEq

/-- The row at a base depth, with its line break; an empty row is not indented. -/
def Row.render (base : Nat) (row : Row) : Text :=
  if row.text.isEmpty then ['\n']
  else Text.indentation (base + row.depth) ++ row.text ++ ['\n']

abbrev Block := List CodeLine

namespace Block

/-- The rows of a block whose first line finds the given depth. No line stands left of the
margin. -/
def rowsFrom (depth : Nat) : Block → List Row
  | [] => []
  | l :: ls =>
    match l.shift with
    | .stay => ⟨depth, l.text⟩ :: rowsFrom depth ls
    | .deeper => ⟨depth, l.text⟩ :: rowsFrom (depth + 1) ls
    | .shallower => ⟨depth - 1, l.text⟩ :: rowsFrom (depth - 1) ls

def rows (block : Block) : List Row := rowsFrom 0 block

def render (base : Nat) (block : Block) : Text := (rows block).flatMap (Row.render base)

theorem map_text_rowsFrom (depth : Nat) (block : Block) :
    (rowsFrom depth block).map Row.text = block.map CodeLine.text := by
  induction block generalizing depth with
  | nil => rfl
  | cons l ls ih =>
    simp only [rowsFrom]
    split <;> simp [ih]

end Block

end NodeScaffold
