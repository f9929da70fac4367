import NodeScaffold.Pattern.Escape

/-! # Reading sets

A set stands in brackets. It holds characters, ranges, categories, sets with a name and other sets,
and operators on them that all bind alike, from left to right. -/
namespace NodeScaffold.Pattern
set_option autoImplicit false

def setNames : List Text := [
  "alnum", "alpha", "ascii", "blank", "cntrl", "digit", "graph", "lower", "print", "punct", "space",
  "upper", "word", "xdigit"]

/-- Reads a set with a name behind its bracket: whether it is complemented, and what follows. -/
def readNamed? : Text → Option (Bool × Text)
  | ':' :: t =>
    let negated := t.head? = some '^'
    let t := if negated then t.drop 1 else t
    match t.dropWhile (· ≠ ':') with
    | ':' :: ']' :: rest =>
      if setNames.any (· = t.takeWhile (· ≠ ':')) then some (negated, rest) else none
    | _ => none
  | _ => none

def readRangeEnd? (spaced : Bool) : Text → Option (Sign × Text)
  | [] => none
  | '\\' :: rest => readEscape? spaced rest
  | c :: rest => some (.symbol { char := c }, rest)

/-- A part of a set on its own; an edge is none. -/
def Sign.part? : Sign → Option SetExpr
  | .symbol s => some (.symbol s)
  | .category negated => some (.category negated)
  | .any | .edge | .wordEdge => none

/-- A range, which must not end before it starts. -/
def Sign.rangeTo? : Sign → Sign → Option SetExpr
  | .symbol first, .symbol last =>
    if first.char.toNat ≤ last.char.toNat then some (.range first last) else none
  | _, _ => none

/-- Reads a character, a category or a range. A hyphen does not make a range if a bracket or another
hyphen follows it. -/
def readSetPart? (spaced : Bool) (t : Text) : Option (SetExpr × Text) := do
  let (first, rest) ← readRangeEnd? spaced t
  match nextPart spaced rest with
  | '-' :: after =>
    let ahead := peek? spaced after
    if ahead = some ']' || ahead = some '-' then
      return (← first.part?, '-' :: after)
    else
      let (last, rest) ← readRangeEnd? spaced (nextPart spaced after)
      return (← first.rangeTo? last, rest)
  | rest => return (← first.part?, rest)

/-- What has been read of a set: the left side of an operator, and the parts after it from the last
to the first. -/
structure SetDraft where
  /-- nothing but hyphens so far -/
  isFresh : Bool := true
  left? : Option SetExpr := none
  parts : List SetExpr := []

namespace SetDraft

def whole (draft : SetDraft) : SetExpr :=
  let right := SetExpr.ofParts draft.parts.reverse
  match draft.left? with
  | some left => .operation left right
  | none => right

def addHyphen (draft : SetDraft) : SetDraft :=
  { draft with parts := .symbol { char := '-' } :: draft.parts }

def add (draft : SetDraft) (part : SetExpr) : SetDraft :=
  { draft with isFresh := false, parts := part :: draft.parts }

def operate (draft : SetDraft) : SetDraft := { isFresh := false, left? := some draft.whole }

end SetDraft

inductive SetStep where
  | close
  | hyphen
  | part (p : SetExpr)
  | operator
  /-- a set in the set -/
  | nested (negated : Bool)

def readNegation (spaced : Bool) (t : Text) : Bool × Text :=
  match nextPart spaced t with
  | '^' :: rest => (true, rest)
  | rest => (false, rest)

/-- Hyphens at the start of a set are characters of it, and so is a closing bracket right there. -/
def SetDraft.step? (draft : SetDraft) (spaced : Bool) (t : Text) : Option (SetStep × Text) :=
  match nextPart spaced t with
  | [] => none
  | ']' :: rest =>
    if draft.isFresh && draft.parts.isEmpty then some (.part (.symbol { char := ']' }), rest)
    else some (.close, rest)
  | '[' :: rest =>
    match readNamed? rest with
    | some (negated, rest) => some (.part (.named negated), rest)
    | none =>
      let (negated, rest) := readNegation spaced rest
      some (.nested negated, rest)
  | '-' :: rest =>
    if draft.isFresh then some (.hyphen, rest)
    else if rest.head? = some '-' then some (.operator, rest.drop 1)
    else (readSetPart? spaced ('-' :: rest)).map fun (p, rest) => (.part p, rest)
  | '&' :: '&' :: rest => some (.operator, rest)
  | '~' :: '~' :: rest => some (.operator, rest)
  | rest => (readSetPart? spaced rest).map fun (p, rest) => (.part p, rest)

def readSet? (spaced : Bool) (draft : SetDraft) (t : Text) : Option (SetExpr × Text) :=
  match draft.step? spaced t with
  | none => none
  | some (step, rest) =>
    if _h : rest.length < t.length then
      match step with
      | .close => some (draft.whole, rest)
      | .hyphen => readSet? spaced draft.addHyphen rest
      | .part p => readSet? spaced (draft.add p) rest
      | .operator => readSet? spaced draft.operate rest
      | .nested negated =>
        match readSet? spaced {} rest with
        | some (body, rest) =>
          if _h : rest.length < t.length then
            readSet? spaced (draft.add (.bracket negated body)) rest
          else none
        | none => none
    else none
termination_by t.length

end NodeScaffold.Pattern
