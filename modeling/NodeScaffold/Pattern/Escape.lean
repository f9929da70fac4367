import NodeScaffold.Pattern.Basic
import NodeScaffold.Text.Blank

/-! # Spacing and escapes

A spaced pattern may hold blanks and comments between its parts. An escape is a backslash with what
belongs to it; the digits of a code point count as parts, so a spaced pattern may set them apart. -/
namespace NodeScaffold.Pattern
set_option autoImplicit false

def dropSpacing (inComment : Bool) : Text → Text
  | [] => []
  | c :: rest =>
    if inComment then dropSpacing (c ≠ '\n') rest
    else if c = '#' then dropSpacing true rest
    else if Text.isBlank c then dropSpacing false rest
    else c :: rest

def nextPart (spaced : Bool) (t : Text) : Text := if spaced then dropSpacing false t else t

/-- The character that seems to come next. A look ahead skips blanks and one comment sign, but not
the comment; where it finds nothing it takes what stands first. -/
def peek? (spaced : Bool) (t : Text) : Option Char :=
  if spaced then
    let found? := match t.dropWhile Text.isBlank with
      | '#' :: comment => (comment.dropWhile Text.isBlank).head?
      | rest => rest.head?
    found?.or t.head?
  else t.head?

def digit? (c : Char) : Option Nat :=
  if c.isDigit then some (c.toNat - '0'.toNat)
  else if 'a' ≤ c ∧ c ≤ 'f' then some (c.toNat - 'a'.toNat + 10)
  else if 'A' ≤ c ∧ c ≤ 'F' then some (c.toNat - 'A'.toNat + 10)
  else none

def readCode? (spaced : Bool) : Nat → Nat → Text → Option (Nat × Text)
  | 0, code, t => some (code, t)
  | _ + 1, _, [] => none
  | n + 1, code, c :: rest =>
    match digit? c with
    | some d => readCode? spaced n (16 * code + d) (nextPart spaced rest)
    | none => none

def readCharacter? (spaced : Bool) (digits : Nat) (isByte : Bool) (t : Text) :
    Option (Sign × Text) := do
  let (code, rest) ← readCode? spaced digits 0 (nextPart spaced t)
  if code.isValidChar then some (.symbol { char := .ofNat code, isByte }, rest) else none

/-- What an escape of one character stands for; punctuation stands for itself. -/
def escaped? : Char → Option Sign
  | 'a' => some (.symbol { char := '\x07' })
  | 't' => some (.symbol { char := '\t' })
  | 'n' => some (.symbol { char := '\n' })
  | 'v' => some (.symbol { char := '\x0b' })
  | 'f' => some (.symbol { char := '\x0c' })
  | 'r' => some (.symbol { char := '\r' })
  | 'A' | 'z' => some .edge
  | 'b' | 'B' | '<' | '>' => some .wordEdge
  | 'd' | 's' | 'w' => some (.category false)
  | 'D' | 'S' | 'W' => some (.category true)
  | c => if c.toNat < 128 && !c.isAlphanum then some (.symbol { char := c }) else none

def readEscape? (spaced : Bool) : Text → Option (Sign × Text)
  | [] => none
  | 'x' :: rest => readCharacter? spaced 2 true rest
  | 'u' :: rest => readCharacter? spaced 4 false rest
  | 'U' :: rest => readCharacter? spaced 8 false rest
  | c :: rest => (escaped? c).map (·, rest)

end NodeScaffold.Pattern
