import Mathlib.Data.List.Chain
import NodeScaffold.Proofs.Statements
import NodeScaffold.Proofs.Traces

/-! # How deep the reading of a line goes

Reading a line calls itself for each statement of a body that starts on the line. A statement has no
semicolon but at its end, so a header inside of one leaves at most a single statement, and that one
is read in the body of the header, where no other header is looked for. -/
namespace NodeScaffold
set_option autoImplicit false

deriving instance DecidableEq for Moment

namespace Moment
variable (conv : Conventions)

/-- Whether a header is looked for: outside of every declaration, and at a mark that renews the one
before it. -/
def looksForHeader (moment : Moment) : Bool :=
  match moment.mode with
  | .between => true
  | .guarded => (TokenLine.ofText moment.line.text).startsWith conv.abstractWord
  | .body _ | .tagBlock _ => false

/-- The moments at which statements are read, each from where the ones before it lead. -/
def inTurn (number : Nat) : Mode → List Text → List Moment
  | _, [] => []
  | mode, s :: statements =>
    ⟨mode, ⟨number, s⟩⟩ ::
      inTurn number (Reading.ofLine conv mode ⟨number, s⟩).mode statements

def calls (moment : Moment) : List Moment :=
  inTurn conv moment.line.number (moment.step conv).mode (moment.step conv).inner

theorem map_text_inTurn (number : Nat) (mode : Mode) (statements : List Text) :
    (inTurn conv number mode statements).map (·.line.text) = statements := by
  induction statements generalizing mode with
  | nil => rfl
  | cons s statements ih => exact congrArg (s :: ·) (ih _)

theorem foldl_read_eq_inTurn (number : Nat) (statements : List Text) (reading : Reading) :
    (statements.map fun s => (⟨number, s⟩ : Line)).foldl (Reading.read conv) reading =
      (inTurn conv number reading.mode statements).foldl
        (fun reading call => reading.andThen fun _ => Reading.ofLine conv call.mode call.line)
        reading := by
  induction statements generalizing reading with
  | nil => rfl
  | cons s statements ih => exact ih (reading.read conv ⟨number, s⟩)

theorem ofLine_eq_calls (moment : Moment) :
    Reading.ofLine conv moment.mode moment.line =
      (moment.calls conv).foldl
        (fun reading call => reading.andThen fun _ => Reading.ofLine conv call.mode call.line)
        ⟨(moment.step conv).mode, (moment.step conv).findings⟩ := by
  rw [Reading.ofLine_eq]
  exact foldl_read_eq_inTurn conv moment.line.number _ _

variable {conv} {moment caller callee : Moment}

theorem text_mem_inner (h : callee ∈ caller.calls conv) :
    callee.line.text ∈ (caller.step conv).inner := by
  have hMem := List.mem_map_of_mem (f := fun moment : Moment => moment.line.text) h
  rwa [calls, map_text_inTurn] at hMem

theorem wellFounded_calls :
    WellFounded fun callee caller : Moment => callee ∈ caller.calls conv := by
  apply Subrelation.wf (r := InvImage (· < ·) fun moment : Moment => moment.line.text.length)
  · intro callee caller h
    exact Step.length_lt_of_mem_inner (text_mem_inner h)
  · exact InvImage.wf _ Nat.lt_wfRel.wf

/-- Only a header leaves statements to be read, and they start in its body. -/
theorem inner_cases (moment : Moment) : (moment.step conv).inner = [] ∨
    ∃ name base body, moment.mode = .between ∧
      Header.find? (TokenLine.ofText moment.line.text) = some ⟨name, some base, body⟩ ∧
      moment.step conv =
        { mode := .body { name, base, line := moment.line.number },
          inner := bodyStatements body } := by
  obtain ⟨mode, line⟩ := moment
  have hCase := Step.case_of conv line mode
  simp only [step]
  generalize Step.of conv mode line = step at hCase
  cases hCase with
  | openBody hFind => exact .inr ⟨_, _, _, rfl, hFind, rfl⟩
  | _ => exact .inl rfl

end Moment

theorem semicolon_notMem_dropLast_of_isInfix {s t : Text} (h : s <:+: t) (ht : ';' ∉ t.dropLast) :
    ';' ∉ s.dropLast := by
  obtain ⟨u, v, rfl⟩ := h
  intro hMem
  apply ht
  by_cases hv : v = []
  · have hs : s ≠ [] := by
      rintro rfl
      simp at hMem
    rw [hv, List.append_nil, List.dropLast_append_of_ne_nil hs]
    exact List.mem_append_right u hMem
  · rw [List.dropLast_append_of_ne_nil hv]
    exact List.mem_append_left _ (List.mem_append_right u ((List.dropLast_sublist s).subset hMem))

theorem length_bodyStatements_le_one {t : Text} (h : ';' ∉ t.dropLast) :
    (bodyStatements t).length ≤ 1 := by
  rcases List.eq_nil_or_concat t with rfl | ⟨u, c, rfl⟩
  · simp [bodyStatements, Text.splitAfter]
  · rw [List.concat_eq_append, List.dropLast_concat] at h
    rw [List.concat_eq_append]
    by_cases hc : c = ';'
    · subst hc
      rw [bodyStatements_append_cons h]
      simp [bodyStatements, Text.splitAfter]
    · have hPlain : ';' ∉ u ++ [c] := by simp [h, Ne.symm hc]
      have hStatements := @bodyStatements_pieces [] (u ++ [c]) (by simp) hPlain
      rw [List.flatMap_nil, List.nil_append] at hStatements
      rw [hStatements]
      split <;> simp

/-- A header inside of a statement leaves at most one statement. -/
theorem length_bodyStatements_of_find? {t s : Text} {header : Header} (hs : s ∈ bodyStatements t)
    (hFind : Header.find? (TokenLine.ofText s) = some header) :
    (bodyStatements header.body).length ≤ 1 := by
  have hInfix := Header.body_isInfix_of_find? hFind
  rw [TokenLine.text_ofText] at hInfix
  apply length_bodyStatements_le_one
  exact semicolon_notMem_dropLast_of_isInfix hInfix
    ((areStatements_bodyStatements t).undivided s hs)

namespace Moment
variable {conv : Conventions} {outer inner innermost : Moment}

/-- The call inside of a call is the only one, and is made in the body of a header just found. -/
theorem calls_of_mem_calls (h : inner ∈ outer.calls conv) (h' : innermost ∈ inner.calls conv) :
    inner.calls conv = [innermost] ∧
      ∃ name base, innermost.mode = .body { name, base, line := innermost.line.number } := by
  have hText := text_mem_inner h
  obtain hNone | ⟨_, _, body, -, -, hOuter⟩ := @inner_cases conv outer
  · simp [hNone] at hText
  obtain hNone | ⟨name, base, body', -, hFind, hInner⟩ := @inner_cases conv inner
  · simpa [hNone] using text_mem_inner h'
  rw [hOuter] at hText
  have hLength := length_bodyStatements_of_find? hText hFind
  have hCalls : inner.calls conv = inTurn conv inner.line.number
      (.body { name, base, line := inner.line.number }) (bodyStatements body') := by
    rw [calls, hInner]
  cases hBody : bodyStatements body' with
  | nil =>
    rw [hCalls, hBody] at h'
    cases h'
  | cons s rest =>
    have hRest : rest = [] := by
      rw [hBody, List.length_cons] at hLength
      exact List.length_eq_zero_iff.mp (by omega)
    rw [hBody, hRest] at hCalls
    rw [hCalls] at h'
    cases List.mem_singleton.mp h'
    exact ⟨hCalls, name, base, rfl⟩

theorem calls_eq_nil_of_body {draft : Draft} (h : inner.mode = .body draft) :
    inner.calls conv = [] := by
  obtain hNone | ⟨_, _, _, hMode, -, -⟩ := @inner_cases conv inner
  · rw [calls, hNone]
    rfl
  · rw [h] at hMode
    cases hMode

/-- Three calls at most are in progress at once, and the third one looks for no header. -/
theorem bounds_of_isChain {stack : List Moment}
    (h : stack.IsChain fun caller callee => callee ∈ caller.calls conv) :
    stack.length ≤ 3 ∧ stack.countP (·.looksForHeader conv) ≤ 2 := by
  obtain _ | ⟨outer, _ | ⟨inner, _ | ⟨innermost, deeper⟩⟩⟩ := stack
  case nil | cons.nil | cons.cons.nil =>
    exact ⟨by simp, Nat.le_trans List.countP_le_length (by simp)⟩
  simp only [List.isChain_cons_cons] at h
  obtain ⟨hInner, hInnermost, hDeeper⟩ := h
  obtain ⟨-, name, base, hMode⟩ := calls_of_mem_calls hInner hInnermost
  have hLooks : innermost.looksForHeader conv = false := by rw [looksForHeader, hMode]
  cases deeper with
  | nil =>
    have hCount := List.countP_le_length (p := (·.looksForHeader conv)) (l := [outer, inner])
    simp only [List.countP_cons, hLooks] at hCount ⊢
    exact ⟨Nat.le_refl 3, by simpa using hCount⟩
  | cons call deeper =>
    rw [List.isChain_cons_cons, calls_eq_nil_of_body hMode] at hDeeper
    cases hDeeper.1

end Moment

/-- Reading a line is one step and the calls for the statements that the step leaves, and it comes
to an end. At no time are more than three readings in progress, or more than two that look for a
header: statements are trimmed, not empty and undivided, and lose nothing of their text but blanks,
so a header inside of a statement leaves at most one, which is read in the body of that header. -/
theorem calls_shallow (conv : Conventions) :
    (∀ moment : Moment, Reading.ofLine conv moment.mode moment.line =
      (moment.calls conv).foldl
        (fun reading call => reading.andThen fun _ => Reading.ofLine conv call.mode call.line)
        ⟨(moment.step conv).mode, (moment.step conv).findings⟩) ∧
    (WellFounded fun callee caller : Moment => callee ∈ caller.calls conv) ∧
    (∀ stack : List Moment,
      (stack.IsChain fun caller callee => callee ∈ caller.calls conv) →
        stack.length ≤ 3 ∧ stack.countP (·.looksForHeader conv) ≤ 2) ∧
    (∀ t : Text, AreStatements t (bodyStatements t)) ∧
    (∀ (t s : Text) (header : Header), s ∈ bodyStatements t →
      Header.find? (TokenLine.ofText s) = some header → (bodyStatements header.body).length ≤ 1) ∧
    ∀ outer inner innermost : Moment, inner ∈ outer.calls conv → innermost ∈ inner.calls conv →
      inner.calls conv = [innermost] ∧
        ∃ name base, innermost.mode = .body { name, base, line := innermost.line.number } := by
  refine ⟨Moment.ofLine_eq_calls conv, Moment.wellFounded_calls, ?_, areStatements_bodyStatements,
    ?_, ?_⟩
  · intro stack hStack
    exact Moment.bounds_of_isChain hStack
  · intro t s header hs hFind
    exact length_bodyStatements_of_find? hs hFind
  · intro outer inner innermost hInner hInnermost
    exact Moment.calls_of_mem_calls hInner hInnermost

/-- Three calls in progress on a line with two headers. -/
def deepStack : List Moment := [
  ⟨.between, ⟨1, "struct A : B \x7b\x7d; struct C : D \x7b SyntaxToken x;"⟩⟩,
  ⟨.between, ⟨1, "struct C : D \x7b SyntaxToken x;"⟩⟩,
  ⟨.body { name := Text.ofString "C", base := Text.ofString "D", line := 1 },
    ⟨1, "SyntaxToken x;"⟩⟩]

theorem calls_shallow_deepStack :
    (deepStack.IsChain fun caller callee => callee ∈ caller.calls .standard) ∧
    deepStack.length = 3 ∧ deepStack.countP (·.looksForHeader .standard) = 2 ∧
    ∀ innermost : Moment, ¬(deepStack ++ [innermost]).IsChain
      fun caller callee => callee ∈ caller.calls .standard := by
  refine ⟨by decide +kernel, rfl, by decide +kernel, ?_⟩
  intro innermost hChain
  have hBound := ((calls_shallow .standard).2.2.1 _ hChain).1
  simp [deepStack] at hBound

end NodeScaffold
