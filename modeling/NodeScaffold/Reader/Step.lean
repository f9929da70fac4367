import NodeScaffold.Declaration.FieldLine
import NodeScaffold.Declaration.Header
import NodeScaffold.Reader.Mode
import NodeScaffold.Token.Lexer

/-! # One step of a reader

A step takes one line and says where the reader stands next, what it found, and which statements of
the same line are still to be read: those of a body that starts on the line of its header. -/
namespace NodeScaffold
set_option autoImplicit false

structure Step where
  mode : Mode
  findings : List Finding := []
  /-- the statements still to be read -/
  inner : List Text := []
deriving DecidableEq

namespace Step

def between (conv : Conventions) (line : Line) (tokens : TokenLine) : Step :=
  if tokens.startsWith conv.abstractWord then
    if tokens.tokens.length = 1 then { mode := .guarded }
    else match Header.find? tokens with
      | some header =>
        { mode := .between, findings := [.skippedHeader header.name line.number] }
      | none => { mode := .between }
  else match Header.find? tokens with
    | some ⟨name, some base, body⟩ =>
      { mode := .body { name, base, line := line.number }, inner := bodyStatements body }
    | _ => { mode := .between }

/-- A line behind a lone abstract mark, which another mark only renews. -/
def guarded (conv : Conventions) (line : Line) (tokens : TokenLine) : Step :=
  if tokens.startsWith conv.abstractWord then between conv line tokens
  else { mode := .between, findings := [.skippedLine line] }

/-- Whether a line ends the fields: a constructor of the node, or the close mark. -/
def closes (conv : Conventions) (draft : Draft) (line : Line) (tokens : TokenLine) : Bool :=
  ((tokens.startsWith draft.name || tokens.startsWith conv.constructorWord) &&
    tokens.contains .parenOpen) || conv.closeMark.isPrefixOf line.text

def body (conv : Conventions) (draft : Draft) (line : Line) (tokens : TokenLine) : Step :=
  if tokens.startsWith conv.tagBlockWord then
    { mode := .tagBlock { draft with hasTagBlock := true } }
  else if closes conv draft line tokens then { mode := .between, findings := [.closed draft] }
  else match FieldDecl.ofLine? tokens with
    | some field => { mode := .body (draft.addField field) }
    | none => { mode := .body draft }

/-- The tag that an entry of a tag block names, what stands before its separator. -/
def entryTag (conv : Conventions) (entry : Text) : Text :=
  Text.trim (entry.takeWhile (· ≠ conv.tagSeparator))

def tagBlock (conv : Conventions) (draft : Draft) (line : Line) : Step :=
  match conv.unqualified? line.text with
  | some entry =>
    let tag := entryTag conv entry
    { mode := .tagBlock (if tag.isEmpty then draft else draft.addTag tag) }
  | none =>
    if conv.closeMark.isPrefixOf line.text then { mode := .body draft }
    else { mode := .tagBlock draft }

def of (conv : Conventions) (mode : Mode) (line : Line) : Step :=
  let tokens := TokenLine.ofText line.text
  match mode with
  | .between => between conv line tokens
  | .guarded => guarded conv line tokens
  | .body draft => body conv draft line tokens
  | .tagBlock draft => tagBlock conv draft line

theorem length_lt_of_mem_inner_between {conv : Conventions} {line : Line} {s : Text}
    (h : s ∈ (between conv line (TokenLine.ofText line.text)).inner) :
    s.length < line.text.length := by
  unfold between at h
  split at h
  · split at h
    · simp at h
    · split at h <;> simp at h
  · split at h
    · next header name base inner hFound =>
      have hBody := Header.length_body_lt_of_find?
        (fun _ => TokenLine.lexeme_ne_nil_of_mem_ofText) hFound
      rw [TokenLine.text_ofText] at hBody
      exact Nat.lt_of_le_of_lt (length_le_of_mem_bodyStatements h) hBody
    · simp at h

/-- The statements that a line leaves to be read are shorter than the line. -/
theorem length_lt_of_mem_inner {conv : Conventions} {mode : Mode} {line : Line} {s : Text}
    (h : s ∈ (of conv mode line).inner) : s.length < line.text.length := by
  cases mode with
  | between => exact length_lt_of_mem_inner_between h
  | guarded =>
    simp only [of, guarded] at h
    split at h
    · exact length_lt_of_mem_inner_between h
    · simp at h
  | body draft =>
    simp only [of, body] at h
    split at h
    · simp at h
    · split at h
      · simp at h
      · split at h <;> simp at h
  | tagBlock draft =>
    simp only [of, tagBlock] at h
    split at h
    · simp at h
    · split at h <;> simp at h

end Step

end NodeScaffold
