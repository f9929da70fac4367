import NodeScaffold.Log.Event
import NodeScaffold.Pattern.Reader
import NodeScaffold.Text.Blank

/-! # Log filters

A filter is a list of directives. A directive sets a level for the events that it is about; it is
written `target[span{field=value}]=level`, and each part can be left out. Of the directives that are
about an event the most specific one counts, and the later one of two that are equally specific; an
event that none is about is not logged. -/
namespace NodeScaffold
set_option autoImplicit false

namespace Level

/-- The levels by rank; nothing is let through at the first one. -/
def names : List (Text × Option Level) := [
  ("off", none), ("error", some .error), ("warn", some .warn), ("info", some .info),
  ("debug", some .debug), ("trace", some .trace)]

/-- The value of decimal digits, which a plus sign may precede. -/
def readRank? (t : Text) : Option Nat :=
  let digits := (t.dropHead? ['+']).getD t
  if digits.isEmpty || !digits.all Char.isDigit then none
  else some (digits.foldl (fun n c => 10 * n + (c.toNat - '0'.toNat)) 0)

/-- Reads a level, given by its rank or by its name in any case. -/
def read? (t : Text) : Option (Option Level) :=
  match readRank? t with
  | some rank => names[rank]?.map Prod.snd
  | none => names.lookup (t.map Char.toLower)

end Level

structure FieldTest where
  name : Text
  pattern? : Option Text := none
deriving DecidableEq

/-- Reads `name` or `name=value`; what follows a second equals sign is left out. -/
def FieldTest.read? (t : Text) : Option FieldTest :=
  if t.isEmpty then none
  else match t.split '=' with
    | [] => none
    | [name] => some { name }
    | name :: value :: _ =>
      if Pattern.isValue value then some { name, pattern? := some value } else none

/-- What the events that a directive is about have in common, and the level up to which it lets them
through; without a level it lets none through. -/
structure Directive where
  /-- what the target of an event starts with -/
  target : Text := []
  span? : Option Text := none
  field? : Option FieldTest := none
  level? : Option Level := some .trace
deriving DecidableEq

namespace Directive

/-- Whether a directive is about an event. One that names a span or a value is about what happens
inside of spans, and no event does. -/
def fits (d : Directive) (event : Event) : Bool :=
  d.target.isPrefixOf event.target && d.span?.isNone &&
    match d.field? with
    | some test => test.pattern?.isNone && event.fieldNames.any (· = test.name)
    | none => true

/-- Whether a directive counts, and not the one before it, for an event that both are about: the
longer target counts, then a field, then the later name of a field. -/
def overrides (d before : Directive) : Bool :=
  if d.target.length = before.target.length then
    match before.field?, d.field? with
    | none, _ => true
    | some _, none => false
    | some test, some later => !later.name.precedes test.name
  else before.target.length < d.target.length

def isTargetStart (c : Char) : Bool := Text.isAlphanumeric c || c = '-' || c = ':' || c = '_'

/-- The bytes of a text, the first one of each character with the character. -/
def bytes (t : Text) : List (Option Char) :=
  t.flatMap fun c => some c :: List.replicate (c.utf8Size - 1) none

def ofBytes (bs : List (Option Char)) : Text := bs.filterMap id

/-- A byte that decides the form of a directive, and the byte that goes into its parts. -/
abbrev Place := Option Char × Option Char

/-- The bytes of a trimmed directive, which decide its form, and with each the byte at the same
place of the directive as it is given, which goes into its parts. They differ if there are blanks in
front. -/
def places (t : Text) : List Place := (bytes t.trim).zip (bytes t)

def partBefore (stops : Text) (ps : List Place) : Text × List Place :=
  let inside : Place → Bool := fun p => !p.1.any stops.contains
  (ofBytes ((ps.takeWhile inside).map Prod.snd), ps.dropWhile inside)

/-- Reads the level at the end of a directive; without one there is no limit. -/
def withLevel? (t : Text) (d : Directive) : List Place → Option Directive
  | [] => some d
  | (some '=', _) :: rest =>
    match ofBytes ((bytes t).drop ((places t).length - rest.length)) with
    | [] => some d
    | level => (Level.read? level).map fun level? => { d with level? }
  | _ => none

def withSpan? (t target : Text) (ps : List Place) : Option Directive :=
  match partBefore [']', '\x7b'] ps with
  | (span, (some ']', _) :: rest) => withLevel? t { target, span? := some span } rest
  | (span, (some '\x7b', _) :: rest) =>
    match partBefore ['\x7d'] rest with
    | (field, _ :: (some ']', _) :: rest) => do
      let test ← FieldTest.read? field
      let span? := if span.isEmpty then none else some span
      withLevel? t { target, span?, field? := some test } rest
    | _ => none
  | _ => none

/-- A directive without a bracket or a level is a level for all targets, or else a target. -/
def ofWord (t : Text) : Directive :=
  match Level.read? t with
  | some level? => { level? }
  | none => { target := t }

def read? (t : Text) : Option Directive :=
  match places t with
  | [] => none
  | (some '[', _) :: rest => withSpan? t [] rest
  | first :: rest =>
    if !first.1.any isTargetStart then none
    else match partBefore ['=', '['] (first :: rest) with
      | (_, []) => some (ofWord t)
      | (target, (some '[', _) :: rest) => withSpan? t target rest
      | (target, rest) => withLevel? t { target } rest

end Directive

abbrev Filter := List Directive

namespace Filter

def upTo (level : Level) : Filter := [{ level? := some level }]

def directiveFor? (filter : Filter) (event : Event) : Option Directive :=
  (filter.filter (·.fits event)).foldl
    (fun best? d =>
      match best? with
      | some best => if d.overrides best then some d else some best
      | none => some d)
    none

def allows (filter : Filter) (event : Event) : Bool :=
  match filter.directiveFor? event with
  | some directive => directive.level?.any fun level => event.level.rank ≤ level.rank
  | none => false

/-- Reads directives between commas. No directive at all lets only errors through, and one that
cannot be read spoils the filter. -/
def read? (t : Text) : Option Filter :=
  match (t.split ',').filter (!·.isEmpty) with
  | [] => some (upTo .error)
  | directives => directives.mapM Directive.read?

end Filter

end NodeScaffold
