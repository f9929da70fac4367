import NodeScaffold.Text.Basic

/-! # Patterns

A pattern is a regular expression for the value of a field. No value is ever held against one here;
what counts is its form. Parts stand side by side or as alternatives, and a set is built from
characters and from other sets. How deep a pattern nests is counted, because it has a limit. -/
namespace NodeScaffold.Pattern
set_option autoImplicit false

/-- A character of a pattern. One that is given by two hexadecimal digits can stand for a byte. -/
structure Symbol where
  char : Char
  isByte : Bool := false

/-- The flags that are turned on and off, each by its letter. -/
structure Switches where
  on : Text := []
  off : Text := []

def Switches.state (switches : Switches) (flag : Char) (before : Bool) : Bool :=
  switches.on.contains flag || before && !switches.off.contains flag

inductive Sign where
  | symbol (s : Symbol)
  /-- the dot -/
  | any
  /-- an end of the value or of a line -/
  | edge
  /-- an edge of a word -/
  | wordEdge
  /-- the digits, the blanks or the word characters, or all but these -/
  | category (negated : Bool)

inductive SetExpr where
  | empty
  | symbol (s : Symbol)
  | range (first last : Symbol)
  /-- one of the sets with a name, or its complement -/
  | named (negated : Bool)
  | category (negated : Bool)
  | bracket (negated : Bool) (body : SetExpr)
  | union (parts : List SetExpr)
  /-- an intersection or a difference -/
  | operation (left right : SetExpr)

inductive Expr where
  | empty
  | flags (switches : Switches)
  | sign (s : Sign)
  | set (negated : Bool) (body : SetExpr)
  | repeated (e : Expr)
  | group (name? : Option Text) (switches : Switches) (body : Expr)
  | alternatives (branches : List Expr)
  | sequence (parts : List Expr)

namespace SetExpr

def ofParts : List SetExpr → SetExpr
  | [] => empty
  | [part] => part
  | parts => union parts

mutual

/-- How deep a set nests; what holds nothing else is not counted. -/
def depth : SetExpr → Nat
  | empty | symbol _ | range _ _ | named _ | category _ => 0
  | bracket _ body => body.depth + 1
  | union parts => depthAll parts + 1
  | operation left right => max left.depth right.depth + 1

def depthAll : List SetExpr → Nat
  | [] => 0
  | part :: parts => max part.depth (depthAll parts)

end

end SetExpr

namespace Expr

def ofParts : List Expr → Expr
  | [] => empty
  | [part] => part
  | parts => sequence parts

mutual

def depth : Expr → Nat
  | empty | flags _ | sign _ => 0
  | set _ body => body.depth + 1
  | repeated e => e.depth + 1
  | group _ _ body => body.depth + 1
  | alternatives branches => depthAll branches + 1
  | sequence parts => depthAll parts + 1

def depthAll : List Expr → Nat
  | [] => 0
  | e :: es => max e.depth (depthAll es)

end

mutual

def names : Expr → List Text
  | empty | flags _ | sign _ | set _ _ => []
  | repeated e => e.names
  | group name? _ body => name?.toList ++ body.names
  | alternatives branches => namesAll branches
  | sequence parts => namesAll parts

def namesAll : List Expr → List Text
  | [] => []
  | e :: es => e.names ++ namesAll es

end

end Expr

end NodeScaffold.Pattern
