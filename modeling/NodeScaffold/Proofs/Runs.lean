import NodeScaffold.Proofs.Recognition
import NodeScaffold.Reader.Reading

/-! # Runs of the reader over written lines

A source is read line by line as it was written: a line is cleaned, and one of which nothing is left
changes nothing. A run is described by where it starts, where it ends and the nodes it adds to the
catalog; such descriptions are put together along the lines. -/
namespace NodeScaffold
set_option autoImplicit false

namespace Catalog

theorem toList_foldl_push (nodes : List NodeDecl) (catalog : Catalog) :
    (nodes.foldl push catalog).toList = catalog.toList ++ nodes := by
  induction nodes generalizing catalog with
  | nil => simp
  | cons node nodes ih => rw [List.foldl_cons, ih, toList_push, List.append_assoc]; rfl

@[simp] theorem toList_ofFindings (conv : Conventions) (findings : List Finding) :
    (ofFindings conv findings).toList = findings.filterMap (·.node? conv) := by
  rw [ofFindings, ofList, toList_foldl_push]
  rfl

end Catalog

namespace Reading

/-- Reads the next lines as they were written, the first of them having the given number. -/
def readWritten (conv : Conventions) (reading : Reading) (number : Nat) : List Text → Reading
  | [] => reading
  | t :: ts =>
    let cleaned := Line.clean t
    readWritten conv (if cleaned.isEmpty then reading else reading.read conv ⟨number, cleaned⟩)
      (number + 1) ts

theorem foldl_read_numbered (conv : Conventions) (ts : List Text) (reading : Reading)
    (number : Nat) :
    ((((ts.map Line.clean).zipIdx number).map fun (t, n) => (⟨n, t⟩ : Line)).filter
      fun line => !line.text.isEmpty).foldl (read conv) reading =
      readWritten conv reading number ts := by
  induction ts generalizing reading number with
  | nil => rfl
  | cons t ts ih =>
    simp only [List.map_cons, List.zipIdx_cons, readWritten, List.filter_cons]
    rw [← ih]
    cases (Line.clean t).isEmpty <;> simp

/-- A source is read as its written lines are. -/
theorem ofLines_ofSource (conv : Conventions) (source : Text) :
    ofLines conv (Line.ofSource source) = readWritten conv {} 1 (source.split '\n') :=
  foldl_read_numbered conv (source.split '\n') {} 1

theorem readWritten_append (conv : Conventions) (reading : Reading) (number : Nat)
    (ts us : List Text) :
    readWritten conv reading number (ts ++ us) =
      readWritten conv (readWritten conv reading number ts) (number + ts.length) us := by
  induction ts generalizing reading number with
  | nil => rfl
  | cons t ts ih =>
    simp only [List.cons_append, readWritten, List.length_cons]
    rw [ih, Nat.add_assoc, Nat.add_comm 1]

/-- Reading on from somewhere adds to what was found before what is found from there. -/
theorem foldl_read_eq_andThen (conv : Conventions) (lines : List Line) (reading : Reading) :
    lines.foldl (read conv) reading =
      reading.andThen fun mode => lines.foldl (read conv) ⟨mode, []⟩ := by
  induction lines generalizing reading with
  | nil => simp [andThen]
  | cons line lines ih =>
    calc
      _ = (reading.read conv line).andThen fun mode => lines.foldl (read conv) ⟨mode, []⟩ :=
        ih (reading.read conv line)
      _ = reading.andThen fun mode => ((⟨mode, []⟩ : Reading).read conv line).andThen
          fun mode => lines.foldl (read conv) ⟨mode, []⟩ := by simp [read, andThen]
      _ = _ := by simp only [← ih, List.foldl_cons]

/-- A line that leaves no statements is read in one step. -/
theorem ofLine_eq_step {conv : Conventions} {mode : Mode} {line : Line}
    (h : (Step.of conv mode line).inner = []) :
    ofLine conv mode line =
      ⟨(Step.of conv mode line).mode, (Step.of conv mode line).findings⟩ := by
  rw [ofLine_eq, h]
  rfl

end Reading

theorem Draft.fields_closedNode (conv : Conventions) (draft : Draft) :
    (draft.closedNode conv).fields = draft.fields := by
  rw [closedNode]
  split <;> rfl

theorem Draft.words_closedNode (conv : Conventions) (draft : Draft) :
    (draft.closedNode conv).name = draft.name ∧
      (draft.closedNode conv).base? = some draft.base := by
  rw [closedNode]
  split <;> exact ⟨rfl, rfl⟩

/-- A line of a body that neither opens a tag block nor ends the fields adds its field, if any. -/
theorem Step.of_body {conv : Conventions} {draft : Draft} {t : Text} (number : Nat)
    (hBlock : (TokenLine.ofText t).startsWith conv.tagBlockWord = false)
    (hConstructor : ¬(((TokenLine.ofText t).startsWith draft.name ∨
        (TokenLine.ofText t).startsWith conv.constructorWord) ∧
      (TokenLine.ofText t).contains .parenOpen))
    (hClose : ¬conv.closeMark <+: t) :
    Step.of conv (.body draft) ⟨number, t⟩ =
      { mode := .body ((FieldDecl.ofLine? (TokenLine.ofText t)).elim draft draft.addField) } := by
  have hCloses : Step.closes conv draft ⟨number, t⟩ (TokenLine.ofText t) = false := by
    rw [← Bool.not_eq_true, Step.closes, Bool.or_eq_true, Bool.and_eq_true, Bool.or_eq_true]
    exact not_or.mpr ⟨hConstructor, fun hMark => hClose (List.isPrefixOf_iff_prefix.mp hMark)⟩
  simp only [Step.of, Step.body, hBlock, hCloses, Bool.false_eq_true, if_false]
  cases FieldDecl.ofLine? (TokenLine.ofText t) <;> rfl

/-- Whatever their numbers and whatever was found before, reading the lines leads from one mode to
the other and adds the given nodes. -/
def Reads (conv : Conventions) (mode : Mode) (written : List Text) (mode' : Mode)
    (nodes : List NodeDecl) : Prop :=
  ∀ number findings, ∃ found, found.filterMap (·.node? conv) = nodes ∧
    Reading.readWritten conv ⟨mode, findings⟩ number written = ⟨mode', findings ++ found⟩

namespace Reads

variable {conv : Conventions} {mode mode' mode'' : Mode} {ts us : List Text}
  {nodes nodes' : List NodeDecl}

theorem nil : Reads conv mode [] mode [] := by
  intro number findings
  exact ⟨[], rfl, by simp [Reading.readWritten]⟩

theorem append (h : Reads conv mode ts mode' nodes) (h' : Reads conv mode' us mode'' nodes') :
    Reads conv mode (ts ++ us) mode'' (nodes ++ nodes') := by
  intro number findings
  obtain ⟨found, hFound, hRead⟩ := h number findings
  obtain ⟨found', hFound', hRead'⟩ := h' (number + ts.length) (findings ++ found)
  refine ⟨found ++ found', by rw [List.filterMap_append, hFound, hFound'], ?_⟩
  rw [Reading.readWritten_append, hRead, hRead', List.append_assoc]

/-- A line that is read in one step, to a mode that does not depend on its number. -/
theorem line {t : Text}
    (h : ∀ number, ∃ found, found.filterMap (·.node? conv) = nodes ∧
      Step.of conv mode ⟨number, Line.clean t⟩ = { mode := mode', findings := found })
    (hNonempty : Line.clean t ≠ []) : Reads conv mode [t] mode' nodes := by
  intro number findings
  obtain ⟨found, hFound, hStep⟩ := h number
  refine ⟨found, hFound, ?_⟩
  have hRead : Reading.ofLine conv mode ⟨number, Line.clean t⟩ = ⟨mode', found⟩ := by
    rw [Reading.ofLine_eq_step (by rw [hStep]), hStep]
  simp [Reading.readWritten, hNonempty, Reading.read, Reading.andThen, hRead]

/-- A line that changes nothing, perhaps because nothing is left of it. -/
theorem skip {t : Text}
    (h : ∀ number, ∃ found, found.filterMap (·.node? conv) = [] ∧
      Step.of conv mode ⟨number, Line.clean t⟩ = { mode, findings := found }) :
    Reads conv mode [t] mode [] := by
  by_cases hNonempty : Line.clean t = []
  · exact fun _ findings => ⟨[], rfl, by simp [Reading.readWritten, hNonempty]⟩
  · exact line h hNonempty

/-- The nodes of a source that is read to its end outside of every declaration. -/
theorem toList_ofSource {source : Text}
    (h : Reads conv .between (source.split '\n') .between nodes) :
    (Catalog.ofSource conv source).toList = nodes := by
  obtain ⟨found, hFound, hRead⟩ := h 1 []
  rw [Catalog.ofSource, Finding.ofSource, Reading.ofLines_ofSource, hRead,
    Catalog.toList_ofFindings]
  simpa [Reading.atEnd] using hFound

end Reads

end NodeScaffold
