import SynthGraph.Unit

namespace SynthGraph

/-!
# Filters

A filter has one audio input and one audio output.  Its document holds the
parameters of its mode next to the fields of whatever arrives at the input.
-/

/-- The effects that a filter may apply. -/
inductive FilterMode where
  | lowPass
  | highPass
  | delay
  | flanger
  | distortion
  | overdrive
  | average
  deriving Repr, DecidableEq

namespace FilterMode

/-- Every mode in catalog order. -/
def all : List FilterMode :=
  [lowPass, highPass, delay, flanger, distortion, overdrive, average]

/-- The kind of a filter of the mode. -/
def kind : FilterMode → String
  | lowPass => "low pass filter"
  | highPass => "high pass filter"
  | delay => "delay"
  | flanger => "flanger"
  | distortion => "distortion"
  | overdrive => "overdrive"
  | average => "average"

/-- The key of the mode's parameters in documents. -/
def key : FilterMode → String
  | lowPass => "lpf"
  | highPass => "hpf"
  | mode => mode.kind

/-- The mode of a kind. -/
def ofKind? (kind : String) : Option FilterMode :=
  all.find? (·.kind = kind)

/-- The mode of a document key. -/
def ofKey? (key : String) : Option FilterMode :=
  all.find? (·.key = key)

/-- The dials of a filter of the mode. -/
def dials : FilterMode → Dials
  | lowPass | highPass => [⟨"cutoff", 1, 22000, 5000⟩]
  | delay =>
      [⟨"time", 0.00001, 4, 1⟩,
        ⟨"factor", 0, 2, 1⟩,
        ⟨"feedback", 0, 2, 0⟩]
  | _ => []

end FilterMode

namespace Filter

/-- The sockets of a filter. -/
def sockets : List Socket :=
  [.input "IN" .audio, .output "OUT" .audio]

/-- The parameters of a filter: all its dials. -/
def parameters (dials : Dials) : Document.Fields :=
  Entries.ofList (dials.map fun dial => (dial.id, .number dial.value))

/-- The body of a filter document: the parameters and what is filtered. -/
def body
    (mode : FilterMode)
    (dials : Dials)
    (filtered : Option Document) :
    Document.Fields :=
  Document.Fields.merge? [(mode.key, .object (parameters dials))] filtered

/-- The document of a filter. -/
def compile
    (mode : FilterMode)
    (dials : Dials)
    (connections : Connections) :
    Document :=
  .keyed "filter" (body mode dials (connections.resolve? "IN"))

end Filter

end SynthGraph
