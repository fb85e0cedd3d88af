import SynthGraph.Unit

namespace SynthGraph

/-!
# Signals derived from the played frequency

A transpose shifts a frequency, a panning turns it into a place between left
and right.
-/

namespace Transpose

/-- The kind of a transpose, which is its document key too. -/
def kind : String := "transpose"

/-- The sockets of a transpose. -/
def sockets : List Socket :=
  [.input "FREQ IN" .frequency, .output "FREQ" .frequency]

/-- The dials of a transpose: two octaves down to two octaves up. -/
def dials : Dials :=
  [⟨"semitones", -24, 24, 0⟩]

/-- The document of a shift of an optional pitch. -/
def shift (dials : Dials) (pitch : Option Document) : Document :=
  .keyed kind
    (Document.Fields.merge? [("semitones", .number (Dials.value dials "semitones"))] pitch)

/-- The document of a transpose. -/
def compile (dials : Dials) (connections : Connections) : Document :=
  shift dials (connections.resolve? "FREQ IN")

end Transpose

namespace Panning

/-- The kind of a panning, which is its document key too. -/
def kind : String := "panning"

/-- The sockets of a panning. -/
def sockets : List Socket :=
  [.input "FREQ" .frequency, .output "PAN" .panning]

/-- The document of a panning. -/
def compile (connections : Connections) : Document :=
  .keyed kind (Document.Fields.merge? [] (connections.resolve? "FREQ"))

end Panning

end SynthGraph
