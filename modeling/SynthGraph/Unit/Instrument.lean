import SynthGraph.Unit.Generator
import SynthGraph.Unit.Filter
import SynthGraph.Unit.Derived

namespace SynthGraph

/-!
# The units of instruments

An instrument graph leads the played frequency, which enters at `input`, through
sound sources and filters to `output`.
-/

/-- A unit of an instrument graph. -/
inductive InstrumentUnit where
  | input
  | output
  | generator (waveform : Waveform) (dials : Dials)
  | wav (sample : Sample) (dials : Dials)
  | filter (mode : FilterMode) (dials : Dials)
  | transpose (dials : Dials)
  | panning
  deriving Repr, DecidableEq

namespace InstrumentUnit

/-- The kind of the unit where the played frequency enters. -/
def inputKind : String := "input"

/-- The kind of the unit where the audio leaves. -/
def outputKind : String := "output"

/-- The name of what a unit does. -/
def kind : InstrumentUnit → String
  | input => inputKind
  | output => outputKind
  | generator waveform _ => waveform.kind
  | wav _ _ => Sample.kind
  | filter mode _ => mode.kind
  | transpose _ => Transpose.kind
  | panning => Panning.kind

/-- The sockets of a unit. -/
def sockets : InstrumentUnit → List Socket
  | input => [.output "FREQ" .frequency]
  | output => [.input "IN" .audio]
  | generator _ _ => Generator.sockets
  | wav _ _ => Generator.sockets
  | filter _ _ => Filter.sockets
  | transpose _ => Transpose.sockets
  | panning => Panning.sockets

/-- The dials of a unit. -/
def dials : InstrumentUnit → Dials
  | generator _ dials => dials
  | wav _ dials => dials
  | filter _ dials => dials
  | transpose dials => dials
  | _ => []

/-- The unit with other dials, if it has dials. -/
def withDials (replacement : Dials) : InstrumentUnit → InstrumentUnit
  | generator waveform _ => generator waveform replacement
  | wav sample _ => wav sample replacement
  | filter mode _ => filter mode replacement
  | transpose _ => transpose replacement
  | unit => unit

/-- The unit after a dial is turned; none if it has no such dial. -/
def setDial? (unit : InstrumentUnit) (id : String) (value : Double) :
    Option InstrumentUnit :=
  (Dials.set? unit.dials id value).map unit.withDials

/-- What a unit contributes.  The input adds nothing: pitch follows the played note. -/
def compile (connections : Connections) : InstrumentUnit → Emission
  | input => .nothing
  | output => .ofDocument? (connections.resolve? "IN")
  | generator waveform dials => .document (Generator.compile waveform dials connections)
  | wav sample dials => .document (sample.compile dials)
  | filter mode dials => .document (Filter.compile mode dials connections)
  | transpose dials => .document (Transpose.compile dials connections)
  | panning => .document (Panning.compile connections)

instance : UnitLike InstrumentUnit where
  Context := Unit
  kind := kind
  sockets := sockets
  dials := dials
  setDial? := setDial?
  compile _ connections unit := unit.compile connections

/-- Whether a unit is a sound source. -/
def isGenerator : InstrumentUnit → Bool
  | generator _ _ => true
  | wav _ _ => true
  | _ => false

/-- The sample of a unit that plays one. -/
def sample? : InstrumentUnit → Option Sample
  | wav sample _ => some sample
  | _ => none

/-- The unit with another sample, if it plays one. -/
def withSample (replacement : Sample) : InstrumentUnit → InstrumentUnit
  | wav _ dials => wav replacement dials
  | unit => unit

/-- A new generator. -/
def ofWaveform (waveform : Waveform) : InstrumentUnit :=
  generator waveform Generator.dials

/-- A new filter. -/
def ofMode (mode : FilterMode) : InstrumentUnit :=
  filter mode mode.dials

/-- Every kind of unit of an instrument graph. -/
def registry : Registry InstrumentUnit :=
  ⟨[input, output]
    ++ Waveform.all.map ofWaveform
    ++ [wav Sample.unset Generator.dials]
    ++ FilterMode.all.map ofMode
    ++ [transpose Transpose.dials, panning]⟩

end InstrumentUnit

end SynthGraph
