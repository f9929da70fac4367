import NodeScaffold.Pattern.Mode
import NodeScaffold.Pattern.Set
import NodeScaffold.Text.Alphanumeric

/-! # Reading patterns

A pattern is read part by part. A group is read like a pattern of its own up to its closing
parenthesis, and it alone sees the change of spacing that a flag in it makes. -/
namespace NodeScaffold.Pattern
set_option autoImplicit false

def flagNames : Text := "imsUuRx"

/-- Reads the letters of flags; those behind a hyphen are turned off, and none stands twice. -/
def readSwitches? (t : Text) : Option Switches :=
  let on := t.takeWhile (· ≠ '-')
  let off := (t.dropWhile (· ≠ '-')).drop 1
  let letters := on ++ off
  if t.getLast? = some '-' || !letters.all flagNames.contains || !letters.Nodup then none
  else some { on, off }

def isName : Text → Bool
  | [] => false
  | c :: rest =>
    (c = '_' || Text.isLetter c) &&
      rest.all fun c => Text.isAlphanumeric c || c = '_' || c = '.' || c = '[' || c = ']'

inductive Step where
  | close
  | branch
  | part (e : Expr)
  | repetition
  | flags (switches : Switches)
  | group (name? : Option Text) (switches : Switches)

def readName? (t : Text) : Option (Step × Text) :=
  match t.dropWhile (· ≠ '>') with
  | _ :: rest =>
    let name := t.takeWhile (· ≠ '>')
    if isName name then some (.group (some name) {}, rest) else none
  | [] => none

/-- Reads flags, which stand alone or open a group. -/
def readFlags? (t : Text) : Option (Step × Text) := do
  let letters := t.takeWhile fun c => c ≠ ':' && c ≠ ')'
  let switches ← readSwitches? letters
  match t.drop letters.length with
  | ':' :: rest => some (.group none switches, rest)
  | ')' :: rest => if letters.isEmpty then none else some (.flags switches, rest)
  | _ => none

def readGroup? : Text → Option (Step × Text)
  | '?' :: 'P' :: '<' :: rest => readName? rest
  | '?' :: '<' :: rest => readName? rest
  | '?' :: rest => readFlags? rest
  | rest => some (.group none {}, rest)

/-- A second question mark belongs to the repetition before it. A count of repetitions is never
complete, because its closing brace would end the pattern. -/
def step? (spaced : Bool) (t : Text) : Option (Step × Text) :=
  match nextPart spaced t with
  | [] => some (.close, [])
  | ')' :: rest => some (.close, ')' :: rest)
  | '|' :: rest => some (.branch, rest)
  | '(' :: rest => readGroup? (nextPart spaced rest)
  | '[' :: rest =>
    let (negated, rest) := readNegation spaced rest
    (readSet? spaced {} rest).map fun (body, rest) => (.part (.set negated body), rest)
  | '\x7b' :: _ => none
  | '\\' :: rest => (readEscape? spaced rest).map fun (s, rest) => (.part (.sign s), rest)
  | '.' :: rest => some (.part (.sign .any), rest)
  | c :: rest =>
    if c = '^' || c = '$' then some (.part (.sign .edge), rest)
    else if c = '?' || c = '*' || c = '+' then
      some (.repetition, (Text.dropHead? rest ['?']).getD rest)
    else some (.part (.sign (.symbol { char := c })), rest)

/-- What has been read of a pattern: the branches before, and the parts of the last one, both from
the last to the first. -/
structure Draft where
  branches : List Expr := []
  parts : List Expr := []

namespace Draft

def whole (draft : Draft) : Expr :=
  let last := Expr.ofParts draft.parts.reverse
  if draft.branches.isEmpty then last else .alternatives (draft.branches.reverse ++ [last])

def add (draft : Draft) (part : Expr) : Draft := { draft with parts := part :: draft.parts }

def nextBranch (draft : Draft) : Draft :=
  { branches := Expr.ofParts draft.parts.reverse :: draft.branches }

/-- Repeats the last part; flags cannot be repeated. -/
def repeatLast? (draft : Draft) : Option Draft :=
  match draft.parts with
  | [] | .flags _ :: _ => none
  | part :: parts => some { draft with parts := .repeated part :: parts }

end Draft

/-- Reads a pattern to its end or to the parenthesis that closes the group around it. -/
def read? (spaced : Bool) (draft : Draft) (t : Text) : Option (Expr × Text) :=
  match step? spaced t with
  | none => none
  | some (.close, rest) => some (draft.whole, rest)
  | some (step, rest) =>
    if _h : rest.length < t.length then
      match step with
      | .close => none
      | .branch => read? spaced draft.nextBranch rest
      | .part e => read? spaced (draft.add e) rest
      | .repetition =>
        match draft.repeatLast? with
        | some draft => read? spaced draft rest
        | none => none
      | .flags switches => read? (switches.state 'x' spaced) (draft.add (.flags switches)) rest
      | .group name? switches =>
        match read? (switches.state 'x' spaced) {} rest with
        | some (body, ')' :: rest) =>
          if _h : rest.length < t.length then
            read? spaced (draft.add (.group name? switches body)) rest
          else none
        | _ => none
    else none
termination_by t.length

def depthLimit : Nat := 250

def ofText? (t : Text) : Option Expr :=
  match read? false {} t with
  | some (e, []) => some e
  | _ => none

def isUsable (t : Text) : Bool :=
  (ofText? t).any fun e => e.depth ≤ depthLimit && e.names.Nodup && e.isAvailable

/-! ## Values

A filter can ask for a value that is a number or fits a pattern. -/

def unsigned : Text → Text
  | '+' :: t | '-' :: t => t
  | t => t

def isExponent : Text → Bool
  | [] => true
  | 'e' :: t | 'E' :: t => !(unsigned t).isEmpty && (unsigned t).all Char.isDigit
  | _ => false

def isDecimal (t : Text) : Bool :=
  let rest := t.dropWhile Char.isDigit
  let digits := t.takeWhile Char.isDigit
  match rest with
  | '.' :: fraction =>
    !(digits ++ fraction.takeWhile Char.isDigit).isEmpty &&
      isExponent (fraction.dropWhile Char.isDigit)
  | _ => !digits.isEmpty && isExponent rest

def specialNumbers : List Text := ["inf", "infinity", "nan"]

def isNumber (t : Text) : Bool :=
  isDecimal (unsigned t) || specialNumbers.any (· = (unsigned t).map Char.toLower)

def isValue (t : Text) : Bool := isNumber t || isUsable t

end NodeScaffold.Pattern
