import NodeScaffold.Proofs.Runs

/-! # Traces of the reader

A trace lists the moments of a run: where the reader stands and the text it takes next, the
statements on the line of a header before the next line. Every run has one, and what was found is
what was found moment by moment. -/
namespace NodeScaffold
set_option autoImplicit false

/-- All that a step can do on a line. -/
inductive Step.Case (conv : Conventions) (line : Line) : Mode → Step → Prop
  | guard {mode : Mode} (hMode : mode = .between ∨ mode = .guarded) :
      Case conv line mode { mode := .guarded }
  | skipHeader {mode : Mode} {header : Header} (hMode : mode = .between ∨ mode = .guarded)
      (hFind : Header.find? (TokenLine.ofText line.text) = some header) :
      Case conv line mode
        { mode := .between, findings := [.skippedHeader header.name line.number] }
  | pass {mode : Mode} (hMode : mode = .between ∨ mode = .guarded) :
      Case conv line mode { mode := .between }
  | skipLine : Case conv line .guarded { mode := .between, findings := [.skippedLine line] }
  | openBody {name base body : Text}
      (hFind : Header.find? (TokenLine.ofText line.text) = some ⟨name, some base, body⟩) :
      Case conv line .between
        { mode := .body { name, base, line := line.number }, inner := bodyStatements body }
  | openBlock (draft : Draft) :
      Case conv line (.body draft) { mode := .tagBlock { draft with hasTagBlock := true } }
  | close (draft : Draft) :
      Case conv line (.body draft) { mode := .between, findings := [.closed draft] }
  | field (draft : Draft) (field : FieldDecl) :
      Case conv line (.body draft) { mode := .body (draft.addField field) }
  | ignore (draft : Draft) : Case conv line (.body draft) { mode := .body draft }
  | tag (draft : Draft) {entry : Text} (hEntry : conv.unqualified? line.text = some entry)
      (hTag : entryTag conv entry ≠ []) :
      Case conv line (.tagBlock draft) { mode := .tagBlock (draft.addTag (entryTag conv entry)) }
  | blankTag (draft : Draft) {entry : Text} (hEntry : conv.unqualified? line.text = some entry)
      (hTag : entryTag conv entry = []) :
      Case conv line (.tagBlock draft) { mode := .tagBlock draft }
  | closeBlock (draft : Draft) (hEntry : conv.unqualified? line.text = none) :
      Case conv line (.tagBlock draft) { mode := .body draft }
  | ignoreEntry (draft : Draft) (hEntry : conv.unqualified? line.text = none) :
      Case conv line (.tagBlock draft) { mode := .tagBlock draft }

namespace Step
variable (conv : Conventions) (line : Line)

theorem case_between_of_mark {mode : Mode} (hMode : mode = .between ∨ mode = .guarded)
    (hMark : (TokenLine.ofText line.text).startsWith conv.abstractWord) :
    Case conv line mode (between conv line (TokenLine.ofText line.text)) := by
  rw [between, if_pos hMark]
  split
  · exact .guard hMode
  · split
    · next header hFind => exact .skipHeader hMode hFind
    · exact .pass hMode

theorem case_between :
    Case conv line .between (between conv line (TokenLine.ofText line.text)) := by
  by_cases hMark : (TokenLine.ofText line.text).startsWith conv.abstractWord
  · exact case_between_of_mark conv line (.inl rfl) hMark
  · rw [between, if_neg hMark]
    split
    · next name base body hFind => exact .openBody hFind
    · exact .pass (.inl rfl)

theorem case_guarded :
    Case conv line .guarded (guarded conv line (TokenLine.ofText line.text)) := by
  rw [guarded]
  split
  · next hMark => exact case_between_of_mark conv line (.inr rfl) hMark
  · exact .skipLine

theorem case_body (draft : Draft) :
    Case conv line (.body draft) (body conv draft line (TokenLine.ofText line.text)) := by
  rw [body]
  split
  · exact .openBlock draft
  · split
    · exact .close draft
    · split
      · next field _ => exact .field draft field
      · exact .ignore draft

theorem case_tagBlock (draft : Draft) :
    Case conv line (.tagBlock draft) (tagBlock conv draft line) := by
  unfold tagBlock
  split
  · next entry hEntry =>
    by_cases hTag : entryTag conv entry = []
    · simp only [hTag, List.isEmpty_nil, if_true]
      exact .blankTag draft hEntry hTag
    · simp only [List.isEmpty_iff, hTag, if_false]
      exact .tag draft hEntry hTag
  · next hEntry =>
    split
    · exact .closeBlock draft hEntry
    · exact .ignoreEntry draft hEntry

theorem case_of (mode : Mode) : Case conv line mode (of conv mode line) := by
  cases mode with
  | between => exact case_between conv line
  | guarded => exact case_guarded conv line
  | body draft => exact case_body conv line draft
  | tagBlock draft => exact case_tagBlock conv line draft

end Step

/-- Where the reader stands and the text that it takes next. -/
structure Moment where
  mode : Mode
  line : Line

namespace Moment

def step (conv : Conventions) (moment : Moment) : Step := Step.of conv moment.mode moment.line

def finding? (conv : Conventions) (moment : Moment) : Option Finding :=
  (moment.step conv).findings.head?

def node? (conv : Conventions) (moment : Moment) : Option NodeDecl :=
  (moment.finding? conv).bind (·.node? conv)

/-- One step finds one thing at most. -/
theorem findings_eq (conv : Conventions) (moment : Moment) :
    (moment.step conv).findings = (moment.finding? conv).toList := by
  obtain ⟨mode, line⟩ := moment
  have hCase := Step.case_of conv line mode
  simp only [finding?, step]
  generalize Step.of conv mode line = step at hCase ⊢
  cases hCase <;> rfl

/-- All that can be found at a moment. -/
theorem finding?_eq_some {conv : Conventions} {moment : Moment} {finding : Finding}
    (h : moment.finding? conv = some finding) :
    finding = .skippedLine moment.line ∨
    (∃ header, Header.find? (TokenLine.ofText moment.line.text) = some header ∧
      finding = .skippedHeader header.name moment.line.number) ∨
    ∃ draft, moment.mode = .body draft ∧ finding = .closed draft := by
  obtain ⟨mode, line⟩ := moment
  have hCase := Step.case_of conv line mode
  simp only [finding?, step] at h
  generalize Step.of conv mode line = step at hCase h
  cases hCase with
  | skipLine =>
    cases h
    exact .inl rfl
  | skipHeader _ hFind =>
    cases h
    exact .inr (.inl ⟨_, hFind, rfl⟩)
  | close draft =>
    cases h
    exact .inr (.inr ⟨draft, rfl, rfl⟩)
  | _ => cases h

end Moment

/-- The moments of a run over the lines of an agenda, up to the mode in which it ends. -/
inductive Trace (conv : Conventions) : Mode → List Line → List Moment → Mode → Prop
  | nil (mode : Mode) : Trace conv mode [] [] mode
  | cons {mode mode' : Mode} {line : Line} {agenda : List Line} {moments : List Moment}
      (tail : Trace conv (Step.of conv mode line).mode
        ((Step.of conv mode line).inner.map (fun s => ⟨line.number, s⟩) ++ agenda) moments mode') :
      Trace conv mode (line :: agenda) (⟨mode, line⟩ :: moments) mode'

namespace Trace
variable {conv : Conventions} {mode mode' mode'' : Mode} {agenda agenda' : List Line}
  {moments moments' : List Moment}

theorem append (h : Trace conv mode agenda moments mode')
    (h' : Trace conv mode' agenda' moments' mode'') :
    Trace conv mode (agenda ++ agenda') (moments ++ moments') mode'' := by
  induction h with
  | nil mode => exact h'
  | cons tail ih =>
    have hTail := ih h'
    rw [List.append_assoc] at hTail
    exact cons hTail

/-- What holds at the start and is kept by every step, whatever came before, holds at each moment
and at the end. -/
theorem invariant {P : List Moment → Mode → Prop}
    (hStep : ∀ past moment, P past moment.mode → P (past ++ [moment]) (moment.step conv).mode)
    (h : Trace conv mode agenda moments mode') {past : List Moment} (hStart : P past mode) :
    (∀ before moment after, moments = before ++ moment :: after →
      P (past ++ before) moment.mode) ∧ P (past ++ moments) mode' := by
  induction h generalizing past with
  | nil mode => exact ⟨by simp, by simpa using hStart⟩
  | @cons mode mode' line agenda moments tail ih =>
    obtain ⟨hMoments, hEnd⟩ := ih (hStep past ⟨mode, line⟩ hStart)
    refine ⟨fun before moment after hSplit => ?_, by simpa using hEnd⟩
    rcases List.cons_eq_append_iff.mp hSplit with ⟨rfl, hCons⟩ | ⟨before', rfl, hTail⟩
    · obtain ⟨rfl, -⟩ := List.cons.inj hCons
      simpa using hStart
    · simpa using hMoments before' moment after hTail

/-- What holds of the lines of the agenda, and of the statements of a line if of the line, holds of
all that is read. -/
theorem forall_line {Q : Line → Prop}
    (hInner : ∀ mode line, Q line → ∀ s ∈ (Step.of conv mode line).inner, Q ⟨line.number, s⟩)
    (h : Trace conv mode agenda moments mode') (hAgenda : ∀ line ∈ agenda, Q line) :
    ∀ moment ∈ moments, Q moment.line := by
  induction h with
  | nil => simp
  | @cons mode mode' line agenda moments tail ih =>
    obtain ⟨hLine, hLines⟩ := List.forall_mem_cons.mp hAgenda
    refine List.forall_mem_cons.mpr ⟨hLine, ih ?_⟩
    rw [List.forall_mem_append, List.forall_mem_map]
    exact ⟨hInner mode line hLine, hLines⟩

theorem exists_foldl_read {lines : List Line}
    (h : ∀ line ∈ lines, ∀ mode, ∃ moments, Trace conv mode [line] moments
      (Reading.ofLine conv mode line).mode ∧
      (Reading.ofLine conv mode line).findings = moments.filterMap (·.finding? conv))
    (mode : Mode) (findings : List Finding) : ∃ moments mode',
      Trace conv mode lines moments mode' ∧
      lines.foldl (Reading.read conv) ⟨mode, findings⟩ =
        ⟨mode', findings ++ moments.filterMap (·.finding? conv)⟩ := by
  induction lines generalizing mode findings with
  | nil => exact ⟨[], mode, nil mode, by simp⟩
  | cons line lines ih =>
    obtain ⟨hLine, hLines⟩ := List.forall_mem_cons.mp h
    obtain ⟨first, hFirst, hFound⟩ := hLine mode
    obtain ⟨more, mode', hMore, hRead⟩ := ih hLines (Reading.ofLine conv mode line).mode
      (findings ++ (Reading.ofLine conv mode line).findings)
    refine ⟨first ++ more, mode', hFirst.append hMore, ?_⟩
    rw [List.filterMap_append, ← hFound, ← List.append_assoc, ← hRead]
    rfl

theorem exists_ofLine (mode : Mode) (line : Line) : ∃ moments,
    Trace conv mode [line] moments (Reading.ofLine conv mode line).mode ∧
      (Reading.ofLine conv mode line).findings = moments.filterMap (·.finding? conv) := by
  -- the statements inside of a line are shorter than the line
  induction hLength : line.text.length using Nat.strong_induction_on generalizing mode line with
  | _ length ih =>
    subst hLength
    have hFindings : (Step.of conv mode line).findings =
        (Moment.finding? conv ⟨mode, line⟩).toList := Moment.findings_eq conv ⟨mode, line⟩
    have hInner : ∀ inner ∈ (Step.of conv mode line).inner.map fun s => (⟨line.number, s⟩ : Line),
        ∀ mode, ∃ moments, Trace conv mode [inner] moments (Reading.ofLine conv mode inner).mode ∧
          (Reading.ofLine conv mode inner).findings = moments.filterMap (·.finding? conv) := by
      intro inner hMem mode
      obtain ⟨s, hs, rfl⟩ := List.mem_map.mp hMem
      exact ih _ (Step.length_lt_of_mem_inner hs) mode ⟨line.number, s⟩ rfl
    obtain ⟨moments, mode', hTrace, hRead⟩ := exists_foldl_read hInner
      (Step.of conv mode line).mode (Step.of conv mode line).findings
    refine ⟨⟨mode, line⟩ :: moments, ?_, ?_⟩
    · rw [Reading.ofLine_eq, hRead]
      exact cons (by rwa [List.append_nil])
    · rw [Reading.ofLine_eq, hRead, hFindings, List.filterMap_cons]
      cases Moment.finding? conv ⟨mode, line⟩ <;> rfl

/-- Every run has a trace, and finds what its moments find. -/
theorem exists_ofLines (conv : Conventions) (lines : List Line) : ∃ moments,
    Trace conv .between lines moments (Reading.ofLines conv lines).mode ∧
      (Reading.ofLines conv lines).findings = moments.filterMap (·.finding? conv) := by
  obtain ⟨moments, mode', hTrace, hRead⟩ :=
    exists_foldl_read (fun line _ mode => exists_ofLine mode line) .between []
  rw [Reading.ofLines, hRead]
  exact ⟨moments, hTrace, rfl⟩

end Trace

end NodeScaffold
