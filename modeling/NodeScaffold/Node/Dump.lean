import NodeScaffold.Node.Catalog
import NodeScaffold.Text.Quoted

/-! # Dumps

A dump shows a value with its field names, as a catalog is shown with its nodes and their fields.
The compact form stands on one line; the laid-out form gives every part a line of its own, four
spaces deeper than what it belongs to. -/
namespace NodeScaffold
set_option autoImplicit false

inductive Dump where
  | leaf (shown : Text)
  | entry (label : Text) (value : Dump)
  | list (items : List Dump)
  | call (name : Text) (arguments : List Dump)
  | record (name : Text) (entries : List Dump)

namespace Dump

def text (t : Text) : Dump := leaf t.quoted

def texts (ts : List Text) : Dump := list (ts.map text)

def option : Option Text → Dump
  | none => leaf "None"
  | some t => call "Some" [text t]

mutual

def compact : Dump → Text
  | leaf shown => shown
  | entry label value => Text.concat [label, ": ", compact value]
  | list items => Text.concat ["[", Text.join ", " (compactAll items), "]"]
  | call name arguments => Text.concat [name, "(", Text.join ", " (compactAll arguments), ")"]
  | record name entries =>
    Text.concat [name, " \x7b ", Text.join ", " (compactAll entries), " \x7d"]

def compactAll : List Dump → List Text
  | [] => []
  | d :: ds => compact d :: compactAll ds

end

def layOut (depth : Nat) (opening closing : Text) (parts : List Text) : Text :=
  if parts.isEmpty then opening ++ closing
  else Text.concat [
    opening, "\n",
    parts.flatMap fun part => Text.concat [Text.indentation (depth + 1), part, ",\n"],
    Text.indentation depth, closing]

mutual

def prettyAt (depth : Nat) : Dump → Text
  | leaf shown => shown
  | entry label value => Text.concat [label, ": ", prettyAt depth value]
  | list items => layOut depth "[" "]" (prettyAllAt (depth + 1) items)
  | call name arguments =>
    layOut depth (Text.concat [name, "("]) ")" (prettyAllAt (depth + 1) arguments)
  | record name entries =>
    layOut depth (Text.concat [name, " \x7b"]) "\x7d" (prettyAllAt (depth + 1) entries)

def prettyAllAt (depth : Nat) : List Dump → List Text
  | [] => []
  | d :: ds => prettyAt depth d :: prettyAllAt depth ds

end

def pretty (d : Dump) : Text := prettyAt 0 d

end Dump

def FieldDecl.dump (field : FieldDecl) : Dump :=
  .record "FieldSchema" [.entry "name" (.text field.name), .entry "raw_type" (.text field.type)]

def NodeDecl.dump (node : NodeDecl) : Dump :=
  .record "StructSchema" [
    .entry "name" (.text node.name),
    .entry "base_type" (.option node.base?),
    .entry "fields" (.list (node.fields.map FieldDecl.dump)),
    .entry "tags" (.texts node.tags)]

def Catalog.dump (catalog : Catalog) : Dump := .list (catalog.toList.map NodeDecl.dump)

end NodeScaffold
