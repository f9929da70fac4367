import NodeScaffold.Document.Artifact
import NodeScaffold.Node.Dump

/-! # Log events

An event is one thing worth telling. Its level, its target, its message and its fields are read off
from it, and so is the line that shows it. -/
namespace NodeScaffold
set_option autoImplicit false

inductive Level where
  | error
  | warn
  | info
  | debug
  | trace
deriving DecidableEq, Repr

namespace Level

/-- How much is told at a level; a later level includes the earlier ones. -/
def rank : Level → Nat
  | error => 1
  | warn => 2
  | info => 3
  | debug => 4
  | trace => 5

def name : Level → Text
  | error => "ERROR"
  | warn => "WARN"
  | info => "INFO"
  | debug => "DEBUG"
  | trace => "TRACE"

end Level

inductive Event where
  | skippedLine (line : Nat) (text : Text)
  | skippedHeader (name : Text) (line : Nat)
  | unclosedBody (name : Text) (line : Nat)
  | emptyTagBlock (name : Text) (line : Nat)
  | node (name : Text) (base? : Option Text) (fields : Nat) (tags : List Text)
  | noFields (name : Text)
  | duplicateName (name : Text)
  | noTouchArm (name : Text)
  | catalogRead (input : Text) (nodes : Nat)
  | wrote (artifact : Artifact) (path : Text)
  | upToDate (path : Text)
  | allUpToDate (documents : Nat)
deriving DecidableEq

inductive FieldValue where
  /-- a text, which a log line shows in quotes -/
  | text (t : Text)
  /-- a text that is shown as it is -/
  | plain (t : Text)
  | number (n : Nat)
deriving DecidableEq

def FieldValue.render : FieldValue → Text
  | .text t => t.quoted
  | .plain t => t
  | .number n => Text.ofNat n

namespace Event

def level : Event → Level
  | emptyTagBlock _ _ | duplicateName _ => .warn
  | catalogRead _ _ | wrote _ _ | allUpToDate _ => .info
  | skippedLine _ _ | skippedHeader _ _ | unclosedBody _ _ | node _ _ _ _ | noFields _
  | noTouchArm _ | upToDate _ => .debug

def target : Event → Text
  | skippedLine _ _ | skippedHeader _ _ | unclosedBody _ _ | emptyTagBlock _ _ | node _ _ _ _
  | noFields _ => "nodegen::scan"
  | duplicateName _ => "nodegen::schema"
  | noTouchArm _ => "nodegen::emit::toucher"
  | catalogRead _ _ | wrote _ _ | upToDate _ | allUpToDate _ => "nodegen"

def message : Event → Text
  | skippedLine _ _ | skippedHeader _ _ => "skipped abstract declaration"
  | unclosedBody _ _ => "unterminated struct body, skipping"
  | emptyTagBlock _ _ => "tag block has no entries, using the default tag"
  | node _ _ _ _ => "scanned struct"
  | noFields _ => "struct has no fields"
  | duplicateName _ => "duplicate struct name"
  | noTouchArm _ => "no touch arm for struct without fields"
  | catalogRead _ _ => "scanned schema"
  | wrote _ _ => "wrote document"
  | upToDate _ => "up to date"
  | allUpToDate _ => "generated documents are up to date"

def fields : Event → List (Text × FieldValue)
  | skippedLine line text => [("line", .number line), ("text", .text text)]
  | skippedHeader name line | unclosedBody name line | emptyTagBlock name line =>
    [("name", .text name), ("line", .number line)]
  | node name base? count tags =>
    List.flatten [
      [("name", .text name)],
      base?.toList.map fun base => ("base", .text base),
      [("fields", .number count), ("tags", .plain (Dump.texts tags).compact)]]
  | noFields name | duplicateName name | noTouchArm name => [("name", .text name)]
  | catalogRead input nodes => [("input", .plain input), ("structs", .number nodes)]
  | wrote artifact path => [("artifact", .plain artifact.name), ("path", .plain path)]
  | upToDate path => [("path", .plain path)]
  | allUpToDate documents => [("documents", .number documents)]

/-- The names of the fields that an event can have; its message counts as one. -/
def fieldNames (event : Event) : List Text :=
  "message" ::
    match event with
    | node _ _ _ _ => ["name", "base", "fields", "tags"]
    | _ => event.fields.map Prod.fst

/-- The log line of an event; the names of the levels end in the same column. -/
def render (event : Event) : Text :=
  let padding := List.replicate (5 - event.level.name.length) ' '
  Text.concat [padding, event.level.name, " ", event.message,
    event.fields.flatMap fun (name, value) => Text.concat [" ", name, "=", value.render]]

end Event

end NodeScaffold
