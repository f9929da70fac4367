import NodeScaffold.Proofs.Runs

/-! # Reading without line numbers

A line number goes into drafts and findings and is never looked at again: a reader whose numbers are
all struck out takes the same steps. What is left of a reading is then a function of the texts that
were read, and the nodes of a source are a function of its contents. -/
namespace NodeScaffold
set_option autoImplicit false

def Draft.unnumbered (draft : Draft) : Draft := { draft with line := 0 }

def Mode.unnumbered : Mode → Mode
  | .between => .between
  | .guarded => .guarded
  | .body draft => .body draft.unnumbered
  | .tagBlock draft => .tagBlock draft.unnumbered

def Finding.unnumbered : Finding → Finding
  | .skippedLine line => .skippedLine ⟨0, line.text⟩
  | .skippedHeader name _ => .skippedHeader name 0
  | .closed draft => .closed draft.unnumbered
  | .unclosed draft => .unclosed draft.unnumbered

def Step.unnumbered (step : Step) : Step :=
  ⟨step.mode.unnumbered, step.findings.map Finding.unnumbered, step.inner⟩

def Reading.unnumbered (reading : Reading) : Reading :=
  ⟨reading.mode.unnumbered, reading.findings.map Finding.unnumbered⟩

theorem Mode.unnumbered_eq_between_iff {mode : Mode} :
    mode.unnumbered = .between ↔ mode = .between := by
  cases mode <;> simp [unnumbered]

@[simp] theorem Finding.node?_unnumbered (conv : Conventions) (finding : Finding) :
    finding.unnumbered.node? conv = finding.node? conv := by
  cases finding <;> rfl

namespace Step
variable (conv : Conventions) (number : Nat) (t : Text)

theorem unnumbered_between (tokens : TokenLine) :
    (between conv ⟨number, t⟩ tokens).unnumbered = between conv ⟨0, t⟩ tokens := by
  unfold between
  split
  · split
    · rfl
    · split <;> rfl
  · split <;> rfl

theorem unnumbered_guarded (tokens : TokenLine) :
    (guarded conv ⟨number, t⟩ tokens).unnumbered = guarded conv ⟨0, t⟩ tokens := by
  unfold guarded
  split
  · exact unnumbered_between conv number t tokens
  · rfl

theorem unnumbered_body (draft : Draft) (tokens : TokenLine) :
    (body conv draft ⟨number, t⟩ tokens).unnumbered =
      body conv draft.unnumbered ⟨0, t⟩ tokens := by
  have hCloses :
      closes conv draft.unnumbered ⟨0, t⟩ tokens = closes conv draft ⟨number, t⟩ tokens :=
    rfl
  unfold body
  rw [hCloses]
  split
  · rfl
  · split
    · rfl
    · split <;> rfl

theorem unnumbered_tagBlock (draft : Draft) :
    (tagBlock conv draft ⟨number, t⟩).unnumbered = tagBlock conv draft.unnumbered ⟨0, t⟩ := by
  simp only [tagBlock]
  cases conv.unqualified? t with
  | some entry =>
    dsimp only
    split <;> rfl
  | none =>
    dsimp only
    split <;> rfl

/-- A step neither looks at the number of its line nor at that of its draft. -/
theorem unnumbered_of (mode : Mode) :
    (of conv mode ⟨number, t⟩).unnumbered = of conv mode.unnumbered ⟨0, t⟩ := by
  cases mode with
  | between => exact unnumbered_between conv number t _
  | guarded => exact unnumbered_guarded conv number t _
  | body draft => exact unnumbered_body conv number t draft _
  | tagBlock draft => exact unnumbered_tagBlock conv number t draft

end Step

namespace Reading
variable {conv : Conventions}

theorem unnumbered_foldl_read {lines : List Line} {reading : Reading}
    (h : ∀ line ∈ lines, ∀ mode, (ofLine conv mode line).unnumbered =
      ofLine conv mode.unnumbered ⟨0, line.text⟩) :
    (lines.foldl (read conv) reading).unnumbered =
      (lines.map fun line => (⟨0, line.text⟩ : Line)).foldl (read conv) reading.unnumbered := by
  induction lines generalizing reading with
  | nil => rfl
  | cons line lines ih =>
    obtain ⟨hLine, hLines⟩ := List.forall_mem_cons.mp h
    have hRead : (reading.read conv line).unnumbered =
        reading.unnumbered.read conv ⟨0, line.text⟩ := by
      have hMode := hLine reading.mode
      rw [read, read, andThen, andThen, unnumbered, List.map_append]
      change _ = Reading.mk (ofLine conv reading.mode.unnumbered _).mode
        (_ ++ (ofLine conv reading.mode.unnumbered _).findings)
      rw [← hMode]
      rfl
    rw [List.foldl_cons, ih hLines, hRead, List.map_cons, List.foldl_cons]

theorem unnumbered_ofLine (mode : Mode) (line : Line) :
    (ofLine conv mode line).unnumbered = ofLine conv mode.unnumbered ⟨0, line.text⟩ := by
  -- the statements inside of a line are shorter than the line
  induction hLength : line.text.length using Nat.strong_induction_on generalizing mode line with
  | _ length ih =>
    subst hLength
    have hStep := Step.unnumbered_of conv line.number line.text mode
    have hInner := congrArg Step.inner hStep
    change (Step.of conv mode line).inner = _ at hInner
    rw [ofLine_eq, unnumbered_foldl_read, ofLine_eq, List.map_map, ← hInner]
    · congr 1
      exact congrArg (fun step => Reading.mk step.mode step.findings) hStep
    · intro l hl mode'
      obtain ⟨s, hs, rfl⟩ := List.mem_map.mp hl
      exact ih _ (Step.length_lt_of_mem_inner hs) mode' ⟨line.number, s⟩ rfl

def ofTexts (conv : Conventions) (texts : List Text) : Reading :=
  (texts.map fun t => (⟨0, t⟩ : Line)).foldl (read conv) {}

theorem unnumbered_ofLines (lines : List Line) :
    (ofLines conv lines).unnumbered = ofTexts conv (lines.map Line.text) := by
  rw [ofLines, unnumbered_foldl_read fun line _ mode => unnumbered_ofLine mode line, ofTexts,
    List.map_map]
  rfl

theorem ofTexts_append (texts texts' : List Text) :
    ofTexts conv (texts ++ texts') = (ofTexts conv texts).andThen fun mode =>
      (texts'.map fun t => (⟨0, t⟩ : Line)).foldl (read conv) ⟨mode, []⟩ := by
  rw [ofTexts, List.map_append, List.foldl_append, foldl_read_eq_andThen]
  rfl

theorem filterMap_node?_atEnd (reading : Reading) :
    reading.atEnd.filterMap (·.node? conv) = reading.findings.filterMap (·.node? conv) := by
  obtain ⟨mode, findings⟩ := reading
  cases mode <;> simp [atEnd, Finding.node?]

def nodes (conv : Conventions) (reading : Reading) : List NodeDecl :=
  reading.findings.filterMap (·.node? conv)

theorem nodes_unnumbered (reading : Reading) :
    reading.unnumbered.nodes conv = reading.nodes conv := by
  rw [nodes, unnumbered, List.filterMap_map]
  exact congrArg (reading.findings.filterMap ·) (funext (Finding.node?_unnumbered conv))

theorem nodes_andThen (reading : Reading) (next : Mode → Reading) :
    (reading.andThen next).nodes conv = reading.nodes conv ++ (next reading.mode).nodes conv :=
  List.filterMap_append ..

end Reading

/-- What is left of written lines: the cleaned ones that are not empty. -/
def Line.contentsOf (lines : List Text) : List Text :=
  (lines.map clean).filter fun t => !t.isEmpty

theorem Line.contentsOf_append (lines lines' : List Text) :
    contentsOf (lines ++ lines') = contentsOf lines ++ contentsOf lines' := by
  simp [contentsOf]

def Line.contents (source : Text) : List Text := contentsOf (source.split '\n')

theorem Line.map_text_numbered (texts : List Text) (number : Nat) :
    (((texts.zipIdx number).map fun (t, n) => (⟨n, t⟩ : Line)).filter
      fun line => !line.text.isEmpty).map Line.text = texts.filter fun t => !t.isEmpty := by
  induction texts generalizing number with
  | nil => rfl
  | cons t texts ih =>
    simp only [List.zipIdx_cons, List.map_cons, List.filter_cons]
    split
    · rw [List.map_cons, ih]
    · exact ih (number + 1)

theorem Line.map_text_ofSource (source : Text) :
    (ofSource source).map Line.text = contents source := map_text_numbered (cleanAll source) 1

/-- The reading of a source without its numbers is the reading of its contents. -/
theorem Reading.unnumbered_ofSource (conv : Conventions) (source : Text) :
    (ofLines conv (Line.ofSource source)).unnumbered = ofTexts conv (Line.contents source) := by
  rw [unnumbered_ofLines, Line.map_text_ofSource]

/-- The nodes of a source depend on its contents alone. -/
theorem Catalog.toList_ofSource_eq_nodes (conv : Conventions) (source : Text) :
    (ofSource conv source).toList = (Reading.ofTexts conv (Line.contents source)).nodes conv := by
  rw [← Reading.unnumbered_ofSource, Reading.nodes_unnumbered, ofSource, toList_ofFindings,
    Finding.ofSource, Reading.filterMap_node?_atEnd]
  rfl

end NodeScaffold
