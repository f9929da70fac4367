import Mathlib.Data.List.Chain
import NodeScaffold.Declaration.FieldLine
import NodeScaffold.Line
import NodeScaffold.Node.Basic
import NodeScaffold.Proofs.Lexing

/-! # Headers as they are written

A header is written declaration by declaration, one line for each of its parts. Other lines may
stand between, as long as a reader has no reason to take them for one of its own. -/
namespace NodeScaffold
set_option autoImplicit false

structure Name where
  text : Text
  isName : isName text

inductive TypePart where
  | word (name : Name)
  | scope
  | less
  | greater
  | star
  | ampersand
  | comma
  | space

namespace TypePart

def text : TypePart → Text
  | word name => name.text
  | scope => [':', ':']
  | less => ['<']
  | greater => ['>']
  | star => ['*']
  | ampersand => ['&']
  | comma => [',']
  | space => [' ']

def isWord : TypePart → Bool
  | word _ => true
  | _ => false

def isSpace : TypePart → Bool
  | space => true
  | _ => false

end TypePart

/-- A type as it is written. Its words do not touch each other, and it does not start like a tag
block. -/
structure WrittenType where
  parts : List TypePart
  apart : parts.IsChain fun p q => ¬(p.isWord ∧ q.isWord)
  start : ∃ first rest, parts.dropWhile TypePart.isSpace = first :: rest ∧
    first.text ≠ Text.ofString "VALID_SYNTAX_KINDS"

namespace WrittenType

def text (type : WrittenType) : Text := type.parts.flatMap TypePart.text

def compact (type : WrittenType) : Text := type.text.filter (· ≠ ' ')

end WrittenType

structure Member where
  type : WrittenType
  name : Name

namespace Member

def line (member : Member) : Text :=
  Text.concat [member.type.text, " ", member.name.text, ";"]

def field (member : Member) : FieldDecl := ⟨member.name.text, member.type.compact⟩

end Member

inductive Marking where
  | concrete
  /-- by a mark on the line before it -/
  | alone
  /-- by a mark in front of it -/
  | inFront
deriving DecidableEq, Repr

structure Declaration where
  marking : Marking
  name : Name
  base : Name
  members : List Member
  /-- the entries of the tag block, if there is one -/
  tags? : Option (List Name)

namespace Declaration

def header (decl : Declaration) : Text :=
  Text.concat ["struct ", decl.name.text, " : ", decl.base.text, " \x7b"]

def opening (decl : Declaration) : List Text :=
  match decl.marking with
  | .concrete => [decl.header]
  | .alone => ["abstract", decl.header]
  | .inFront => [Text.concat ["abstract ", decl.header]]

def closing : Text := "\x7d;"

def tagBlockOpening : Text := "VALID_SYNTAX_KINDS = \x7b"

def tagLine (tag : Name) : Text := Text.concat ["SyntaxKind::", tag.text, ","]

def tagBlock (decl : Declaration) : List Text :=
  match decl.tags? with
  | none => []
  | some tags => [tagBlockOpening] ++ tags.map tagLine ++ [closing]

/-- The tags of the node: those of the block, or else the name without the usual ending. -/
def tags (decl : Declaration) : List Text :=
  match decl.tags? with
  | some (tag :: tags) => (tag :: tags).map Name.text
  | _ => [Conventions.standard.impliedTag decl.name.text]

def node (decl : Declaration) : NodeDecl :=
  ⟨decl.name.text, some decl.base.text, decl.members.map Member.field, decl.tags⟩

end Declaration

/-- A line that means nothing outside of a body. -/
def IsNoise (t : Text) : Prop :=
  '\n' ∉ t ∧
    (TokenLine.ofText (Line.clean t)).contains .structWord = false ∧
    (TokenLine.ofText (Line.clean t)).startsWith "abstract" = false

/-- A line that means nothing in the body of a node: no field, no tag block, no constructor and no
closing line. -/
def IsBodyNoise (node : Text) (t : Text) : Prop :=
  '\n' ∉ t ∧
    FieldDecl.ofLine? (TokenLine.ofText (Line.clean t)) = none ∧
    (TokenLine.ofText (Line.clean t)).startsWith "VALID_SYNTAX_KINDS" = false ∧
    ¬(((TokenLine.ofText (Line.clean t)).startsWith node ∨
        (TokenLine.ofText (Line.clean t)).startsWith "explicit") ∧
      (TokenLine.ofText (Line.clean t)).contains .parenOpen) ∧
    ¬Declaration.closing <+: Line.clean t

/-- The second list is the first with some noise between its lines. -/
inductive WithNoise (noise : Text → Prop) : List Text → List Text → Prop
  | nil : WithNoise noise [] []
  | keep {ts us : List Text} (t : Text) (h : WithNoise noise ts us) :
      WithNoise noise (t :: ts) (t :: us)
  | insert {ts us : List Text} (t : Text) (hNoise : noise t) (h : WithNoise noise ts us) :
      WithNoise noise ts (t :: us)

/-- The lines of a declaration. The tag block may stand anywhere between the fields; a concrete body
is free of noise inside of its tag block, and an abstract one is not read at all. -/
inductive Declaration.WrittenAs (decl : Declaration) : List Text → Prop
  | concrete {before after : List Member} {ts us : List Text} (hMarking : decl.marking = .concrete)
      (hMembers : decl.members = before ++ after)
      (hBefore : WithNoise (IsBodyNoise decl.name.text) (before.map Member.line) ts)
      (hAfter : WithNoise (IsBodyNoise decl.name.text) (after.map Member.line) us) :
      WrittenAs decl (decl.opening ++ ts ++ decl.tagBlock ++ us ++ [closing])
  | marked {before after : List Member} {ts : List Text} (hMarking : decl.marking ≠ .concrete)
      (hMembers : decl.members = before ++ after)
      (hBody : WithNoise IsNoise
        (before.map Member.line ++ decl.tagBlock ++ after.map Member.line ++ [closing]) ts) :
      WrittenAs decl (decl.opening ++ ts)

/-- The lines of a header: those of its declarations in their order, and noise. -/
inductive WrittenHeader : List Declaration → List Text → Prop
  | nil : WrittenHeader [] []
  | noise {decls : List Declaration} {ts : List Text} (t : Text) (hNoise : IsNoise t)
      (h : WrittenHeader decls ts) : WrittenHeader decls (t :: ts)
  | declaration {decl : Declaration} {decls : List Declaration} {ts us : List Text}
      (hDecl : decl.WrittenAs ts) (h : WrittenHeader decls us) :
      WrittenHeader (decl :: decls) (ts ++ us)

end NodeScaffold
