import SynthGraph.Graph.Reduction
import SynthGraph.Unit.Sequence

namespace SynthGraph

/-!
# Sequences

A sequence is a graph of triggers and notes that play on one channel.  It
compiles to the documents of its notes, one for every trigger of every note.
-/

/-- A graph of triggers and notes with the channel they play on. -/
structure Sequence where
  channel : UInt8
  graph : Graph SequenceUnit
  deriving Repr, DecidableEq

namespace Sequence

/-- The channel of a sequence that names none. -/
def defaultChannel : UInt8 := 1

/-- A sequence that holds just the clock. -/
def new (channel : UInt8) : Sequence :=
  ⟨channel, Graph.empty.add .input ⟨10, 40⟩⟩

/-- The notes of the sequence. -/
def sinks (sequence : Sequence) : List ModuleId :=
  (sequence.graph.modules.filter (·.unit.isSink)).map Module.id

/-- The documents of all notes, in compile order. -/
def compile (sequence : Sequence) : List Document :=
  (sequence.graph.reduce sequence.channel sequence.sinks).flatMap (·.2.finished)

end Sequence

end SynthGraph
