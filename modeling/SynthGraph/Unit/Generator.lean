import SynthGraph.Unit

namespace SynthGraph

/-!
# Sound sources

Waveform generators and sample players share their sockets and dials.  A
generator takes its pitch from the `FREQ` socket as soon as anything is patched
into it, and from its dial otherwise.
-/

/-- The shapes of generated waves. -/
inductive Waveform where
  | sine
  | square
  | saw
  | triangle
  | whiteNoise
  | pulse
  deriving Repr, DecidableEq

namespace Waveform

/-- Every waveform in catalog order. -/
def all : List Waveform :=
  [sine, square, saw, triangle, whiteNoise, pulse]

/-- The kind of a generator of the waveform. -/
def kind : Waveform → String
  | sine => "sine"
  | square => "square"
  | saw => "saw"
  | triangle => "triangle"
  | whiteNoise => "white_noise"
  | pulse => "pulse"

/-- The key of the waveform in documents, which differs from the kind for the saw only. -/
def documentKey : Waveform → String
  | saw => "sawtooth"
  | waveform => waveform.kind

/-- The waveform of a document key; the saw may go by its kind as well. -/
def ofDocumentKey? (key : String) : Option Waveform :=
  if key = "sawtooth" then some saw else all.find? (·.kind = key)

end Waveform

/-- A sample file and how it is pitched. -/
structure Sample where
  file : String
  pitched : Bool
  basePitch : Double
  deriving Repr, DecidableEq

namespace Sample

/-- The kind of a unit that plays a sample. -/
def kind : String := "wav"

/-- No file yet, unpitched, recorded at 440. -/
def unset : Sample :=
  ⟨"", false, 440⟩

end Sample

namespace Generator

/-- The dials of every sound source. -/
def dials : Dials :=
  [⟨"pitch", 0, 22000, 0⟩,
    ⟨"gain", 0, 4, 1⟩,
    ⟨"panning", 0, 1, 0.5⟩,
    ⟨"attack", 0, 10, 0.1⟩,
    ⟨"decay", 0, 10, 0.1⟩,
    ⟨"sustain", 0, 1, 0.8⟩,
    ⟨"release", 0, 10, 0.1⟩]

/-- The sockets of every sound source. -/
def sockets : List Socket :=
  [.input "FREQ" .frequency, .input "PAN" .panning, .output "OUT" .audio]

/-- The dials that a generator always writes. -/
def writtenDials : List String :=
  ["gain", "panning", "attack", "decay", "sustain", "release"]

/-- The fields of dials by name. -/
def dialFields (dials : Dials) (ids : List String) : Document.Fields :=
  Entries.ofList (ids.map fun id => (id, .number (Dials.value dials id)))

/--
The body of a generator.  A patch into `FREQ` replaces the pitch dial; what it
carries becomes the automatic pitch, if it carries anything.
-/
def body (dials : Dials) (connections : Connections) : Document.Fields :=
  let written := dialFields dials writtenDials
  if connections.isConnected "FREQ" then
    match connections.resolve? "FREQ" with
    | some pitch => Entries.insert "auto_pitch" pitch written
    | none => written
  else
    Entries.insert "pitch" (.number (Dials.value dials "pitch")) written

/-- The document of a generator. -/
def compile
    (waveform : Waveform)
    (dials : Dials)
    (connections : Connections) :
    Document :=
  .keyed waveform.documentKey (body dials connections)

end Generator

/-- The document of a sample player, which writes only the gain of its dials. -/
def Sample.compile (sample : Sample) (dials : Dials) : Document :=
  .keyed Sample.kind
    (Entries.ofList
      [("file", .text sample.file),
        ("gain", .number (Dials.value dials "gain")),
        ("pitched", .bool sample.pitched),
        ("base_pitch", .number sample.basePitch)])

end SynthGraph
