import SynthGraph.Unit

namespace SynthGraph

/-!
# The units of sequences

A sequence graph leads the clock, which enters at `input`, through pulses to
notes, whose pitch and velocity may follow ranges.
-/

/-- How a range walks between its ends. -/
inductive RangeKind where
  | range
  | sweep
  | fadeIn
  deriving Repr, DecidableEq

namespace RangeKind

/-- Every way to walk, in catalog order. -/
def all : List RangeKind :=
  [range, sweep, fadeIn]

/-- The kind of a range unit, which is its document key too. -/
def kind : RangeKind → String
  | range => "range"
  | sweep => "sweep"
  | fadeIn => "fade_in"

/-- The way to walk of a kind. -/
def ofKind? (kind : String) : Option RangeKind :=
  all.find? (·.kind = kind)

/-- The dials of a range. -/
def dials : Dials :=
  [⟨"from", 0, 127, 0⟩, ⟨"to", 0, 127, 127⟩, ⟨"change_every", 0, 128, 1⟩]

/-- The document of a range: all its dials. -/
def compile (walk : RangeKind) (dials : Dials) : Document :=
  .keyed walk.kind (Entries.ofList (dials.map fun dial => (dial.id, .number dial.value)))

end RangeKind

namespace Pulse

/-- The kind of a pulse. -/
def kind : String := "pulse"

/-- The dials of a pulse: the ticks between triggers. -/
def dials : Dials :=
  [⟨"every", 0, 10, 1⟩]

/-- A note repeated every so many ticks. -/
def wrap (dials : Dials) (note : Document) : Document :=
  .keyed "repeat"
    (Document.Fields.merge [("every", .number (Dials.value dials "every"))] note)

end Pulse

namespace PlayNote

/-- The kind of a note, which is its document key too. -/
def kind : String := "play_note"

/-- The dials of a note. -/
def dials : Dials :=
  [⟨"note", 0, 128, 1⟩, ⟨"velocity", 0, 10, 1⟩, ⟨"duration", 0, 10, 1⟩]

/-- The field of a dial, or of the automation that replaces it. -/
def automated
    (dials : Dials)
    (id automaticId : String)
    (automation : Option Document) :
    String × Document :=
  match automation with
  | some document => (automaticId, document)
  | none => (id, .number (Dials.value dials id))

/-- The note before any trigger wraps it; the first automation of a socket counts. -/
def note (dials : Dials) (channel : UInt8) (connections : Connections) : Document :=
  .keyed kind
    (Entries.ofList
      [("duration", .number (Dials.value dials "duration")),
        ("channel", .natural channel.toNat),
        automated dials "note" "auto_note" (connections.documents "NOTE").head?,
        automated dials "velocity" "auto_velocity" (connections.documents "VEL").head?])

/-- One copy of the note for every trigger, each wrapped by it. -/
def compile
    (dials : Dials)
    (channel : UInt8)
    (connections : Connections) :
    List Document :=
  (connections.transforms "TRIG").map (· (note dials channel connections))

end PlayNote

/-- A unit of a sequence graph. -/
inductive SequenceUnit where
  | input
  | pulse (dials : Dials)
  | range (walk : RangeKind) (dials : Dials)
  | playNote (dials : Dials)
  deriving Repr, DecidableEq

namespace SequenceUnit

/-- The kind of the unit where the clock enters. -/
def inputKind : String := "input"

/-- The name of what a unit does. -/
def kind : SequenceUnit → String
  | input => inputKind
  | pulse _ => Pulse.kind
  | range walk _ => walk.kind
  | playNote _ => PlayNote.kind

/-- The sockets of a unit. -/
def sockets : SequenceUnit → List Socket
  | input => [.output "CLOCK" .clock]
  | pulse _ => [.input "CLOCK" .clock, .output "TRIG" .trigger]
  | range _ _ => [.output "OUT" .integer]
  | playNote _ =>
      [.input "TRIG" .trigger, .input "NOTE" .integer, .input "VEL" .integer]

/-- The dials of a unit. -/
def dials : SequenceUnit → Dials
  | input => []
  | pulse dials => dials
  | range _ dials => dials
  | playNote dials => dials

/-- The unit with other dials, if it has dials. -/
def withDials (replacement : Dials) : SequenceUnit → SequenceUnit
  | input => input
  | pulse _ => pulse replacement
  | range walk _ => range walk replacement
  | playNote _ => playNote replacement

/-- The unit after a dial is turned; none if it has no such dial. -/
def setDial? (unit : SequenceUnit) (id : String) (value : Double) :
    Option SequenceUnit :=
  (Dials.set? unit.dials id value).map unit.withDials

/-- What a unit contributes when its notes play on a channel. -/
def compile (channel : UInt8) (connections : Connections) : SequenceUnit → Emission
  | input => .nothing
  | pulse dials => .transform (Pulse.wrap dials)
  | range walk dials => .document (walk.compile dials)
  | playNote dials => .events (PlayNote.compile dials channel connections)

/-- Sequence units are compiled against the channel that notes play on. -/
instance : UnitLike SequenceUnit where
  Context := UInt8
  kind := kind
  sockets := sockets
  dials := dials
  setDial? := setDial?
  compile := compile

/-- Whether a unit ends a sequence. -/
def isSink : SequenceUnit → Bool
  | playNote _ => true
  | _ => false

/-- Every kind of unit of a sequence graph. -/
def registry : Registry SequenceUnit :=
  ⟨[input, pulse Pulse.dials]
    ++ RangeKind.all.map (range · RangeKind.dials)
    ++ [playNote PlayNote.dials]⟩

end SequenceUnit

end SynthGraph
