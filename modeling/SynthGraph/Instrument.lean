import SynthGraph.Graph.Reduction
import SynthGraph.Unit.Instrument

namespace SynthGraph

/-!
# Instruments

An instrument is a graph of sound units.  It compiles to one nested document:
what its first output emits, with the name and the bank slot of the instrument.
-/

/-- A graph of sound units with what the engine calls it. -/
structure Instrument where
  name : Option String
  bankIndex : Option UInt32
  graph : Graph InstrumentUnit
  deriving Repr, DecidableEq

namespace Instrument

/-- An instrument around a graph, without name or bank slot. -/
def ofGraph (graph : Graph InstrumentUnit) : Instrument :=
  ⟨none, none, graph⟩

/-- The number of the input of a new instrument. -/
def inputId : ModuleId := 0

/-- The number of the output of a new instrument. -/
def outputId : ModuleId := 1

/-- An instrument that holds an input and an output, not yet joined. -/
def new : Instrument :=
  .ofGraph ((Graph.empty.add .input ⟨10, 40⟩).add .output ⟨700, 40⟩)

/-- An object with the name and the bank slot of the instrument added. -/
def label (instrument : Instrument) : Document → Document
  | .object fields =>
      let named :=
        match instrument.name with
        | some name => Entries.insert "name" (.text name) fields
        | none => fields
      .object
        (match instrument.bankIndex with
        | some index => Entries.insert "index" (.natural index.toNat) named
        | none => named)
  | document => document

/-- What the modules that feed the first output emit, and the output itself. -/
def emissions (instrument : Instrument) (output : ModuleId) : Emissions :=
  instrument.graph.reduce () [output]

/-- The document of the instrument; none if nothing is patched into an output. -/
def compile? (instrument : Instrument) : Option Document := do
  let output ← instrument.graph.findKind? InstrumentUnit.outputKind
  let emission ← (instrument.emissions output).get? output
  let document ← emission.document?
  return instrument.label document

end Instrument

end SynthGraph
