import NodeScaffold.Node.Basic
import NodeScaffold.Token.Basic

/-! # Field lines and statements

A field line is a type, an identifier and a semicolon. A line with a parenthesis declares a method
and no field. A body on the line of its header is read as if each of its statements had a line of
its own. -/
namespace NodeScaffold
set_option autoImplicit false

/-- The field that a line declares: the name is the identifier before the semicolon, and the type is
all that stands before the name. -/
def FieldDecl.ofLine? (line : TokenLine) : Option FieldDecl :=
  match line.tokens.reverse with
  | ⟨_, .semicolon, _⟩ :: ⟨gap, .ident, name⟩ :: t :: before =>
    if line.contains .parenOpen then none
    else some (declare name (TokenLine.text ⟨(t :: before).reverse, gap⟩).trim)
  | _ => none

/-- The statements of a body, trimmed; each keeps its semicolon, which the last may lack. -/
def bodyStatements (body : Text) : List Text :=
  ((body.splitAfter ';').map Text.trim).filter fun s => !s.isEmpty

theorem length_le_of_mem_bodyStatements {body s : Text} (h : s ∈ bodyStatements body) :
    s.length ≤ body.length := by
  obtain ⟨piece, hPiece, rfl⟩ := List.mem_map.mp (List.mem_filter.mp h).1
  have hSub : piece.length ≤ body.length := by
    have hMem := (List.sublist_flatten_of_mem hPiece).length_le
    rwa [Text.flatten_splitAfter] at hMem
  exact Nat.le_trans (Text.length_trim_le piece) hSub

end NodeScaffold
