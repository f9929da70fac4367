import NodeScaffold.Node.Catalog
import NodeScaffold.Reader.Step

/-! # Reading a header

A reading is where the reader stands and all it has found. The statements of a body that starts on
the line of its header are read one after the other, under the number of that line, before the next
line is. -/
namespace NodeScaffold
set_option autoImplicit false

structure Reading where
  mode : Mode := .between
  findings : List Finding := []
deriving DecidableEq

namespace Reading

/-- Goes on from where a reading stands and keeps what was found. -/
def andThen (reading : Reading) (next : Mode → Reading) : Reading :=
  let later := next reading.mode
  ⟨later.mode, reading.findings ++ later.findings⟩

def ofLine (conv : Conventions) (mode : Mode) (line : Line) : Reading :=
  let step := Step.of conv mode line
  step.inner.attach.foldl
    (fun reading s => reading.andThen fun mode => ofLine conv mode ⟨line.number, s.1⟩)
    ⟨step.mode, step.findings⟩
termination_by line.text.length
decreasing_by exact Step.length_lt_of_mem_inner s.2

def read (conv : Conventions) (reading : Reading) (line : Line) : Reading :=
  reading.andThen fun mode => ofLine conv mode line

def ofLines (conv : Conventions) (lines : List Line) : Reading := lines.foldl (read conv) {}

def atEnd (reading : Reading) : List Finding :=
  match reading.mode with
  | .body draft | .tagBlock draft => reading.findings ++ [.unclosed draft]
  | .between | .guarded => reading.findings

theorem ofLine_eq (conv : Conventions) (mode : Mode) (line : Line) :
    ofLine conv mode line =
      ((Step.of conv mode line).inner.map fun s => (⟨line.number, s⟩ : Line)).foldl (read conv)
        ⟨(Step.of conv mode line).mode, (Step.of conv mode line).findings⟩ := by
  rw [ofLine, List.foldl_map]
  exact List.foldl_attach (f := fun reading s => read conv reading ⟨line.number, s⟩)

end Reading

def Finding.ofSource (conv : Conventions) (source : Text) : List Finding :=
  (Reading.ofLines conv (Line.ofSource source)).atEnd

def Finding.node? (conv : Conventions) : Finding → Option NodeDecl
  | .closed draft => some (draft.closedNode conv)
  | _ => none

def Catalog.ofFindings (conv : Conventions) (findings : List Finding) : Catalog :=
  ofList (findings.filterMap (·.node? conv))

/-- The catalog of the concrete nodes that a source declares. -/
def Catalog.ofSource (conv : Conventions) (source : Text) : Catalog :=
  ofFindings conv (Finding.ofSource conv source)

end NodeScaffold
