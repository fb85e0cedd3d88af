import SynthGraph.Definition.Error
import SynthGraph.Unit.Instrument

namespace SynthGraph

/-!
# Instrument definitions

A definition describes a sound from the outside in: several sounds together, a
sound panned, transposed or filtered, or a sound source.  Documents are read by
the first key they have, in the order of the cases of `Definition.ofDocument`;
a key whose value is null counts as absent.
-/

/-- A sound as an engine describes it. -/
inductive Definition where
  /-- Several sounds at once. -/
  | combined (parts : List Definition)
  /-- A sound whose place between left and right follows its frequency. -/
  | panning (body : Definition)
  /-- A sound at another pitch. -/
  | transpose (dials : Dials) (body : Definition)
  /-- A sound source. -/
  | generator (unit : InstrumentUnit)
  /-- A sound that is left out. -/
  | omitted
  /-- A sound behind a filter. -/
  | filter (mode : FilterMode) (dials : Dials) (body : Definition)
  deriving Repr

namespace Definition

/-- Turn a dial to the number in the field of its name, if there is one. -/
def readDial (body : Document) (dials : Dials) (id : String) : Dials :=
  match body.numberField? id with
  | some value => Dials.set dials id value
  | none => dials

/-- Turn a dial to the number in the field of its name, or to a number of its own. -/
def readDialOr (body : Document) (dials : Dials) (id : String) (absent : Double) : Dials :=
  Dials.set dials id ((body.numberField? id).getD absent)

/-- The dials of a sound source: gain is 1 and the envelope is 0 where nothing is said. -/
def readEnvelope (body : Document) (dials : Dials) : Dials :=
  ["attack", "decay", "sustain", "release"].foldl
    (fun dials id => readDialOr body dials id 0)
    (readDialOr body dials "gain" 1)

/-- The sample that the body of a sample player names. -/
def readSample (body : Document) : Sample :=
  { file := ((body.field? "file").bind Document.text?).getD Sample.unset.file
    pitched := ((body.field? "pitched").bind Document.bool?).getD Sample.unset.pitched
    basePitch := (body.numberField? "base_pitch").getD Sample.unset.basePitch }

/-- The keys of waveforms in the order in which they are looked for. -/
def waveformKeys : List (String × Waveform) :=
  [("sine", .sine), ("triangle", .triangle), ("square", .square), ("sawtooth", .saw),
    ("saw", .saw), ("white_noise", .whiteNoise), ("pulse", .pulse)]

/-- The generator that a body describes. -/
def readGenerator (waveform : Waveform) (body : Document) : InstrumentUnit :=
  .generator waveform
    (["pitch", "panning"].foldl (readDial body) (readEnvelope body Generator.dials))

/-- The sound source that a document describes, if it has the key of one. -/
def generator? (document : Document) : Option InstrumentUnit :=
  match document.present? Sample.kind with
  | some body => some (.wav (readSample body) (readEnvelope body Generator.dials))
  | none =>
      waveformKeys.findSome? fun entry =>
        (document.present? entry.1).map (readGenerator entry.2)

/-- The modes of filters in the order in which their keys are looked for. -/
def modesByKey : List FilterMode :=
  [.lowPass, .highPass, .delay, .distortion, .overdrive, .flanger, .average]

/-- The mode and the dials that parameters describe. -/
def readFilter (mode : FilterMode) (parameters : Document) : FilterMode × Dials :=
  (mode, (mode.dials.map Dial.id).foldl (readDial parameters) mode.dials)

/-- The filter that the body of a filter definition describes. -/
def filter? (body : Document) : Except DefinitionError (FilterMode × Dials) :=
  match modesByKey.findSome? fun mode => (body.present? mode.key).map (readFilter mode) with
  | some found => .ok found
  | none => .error (.unknownFilter body)

/-- The dials of a transpose that a body describes; nothing said is no shift. -/
def readTranspose (body : Document) : Dials :=
  readDialOr body Transpose.dials "semitones" 0

mutual

/-- The definition that a document spells. -/
def ofDocument (document : Document) : Except DefinitionError Definition :=
  match _combined : document.present? "combined" with
  | some (.list parts) => combined <$> ofDocuments parts
  | some other => .error (.unknownDefinition other)
  | none =>
  match _panning : document.present? Panning.kind with
  | some body => panning <$> ofDocument body
  | none =>
  match _transpose : document.present? Transpose.kind with
  | some body => transpose (readTranspose body) <$> ofDocument body
  | none =>
  match generator? document with
  | some unit => .ok (generator unit)
  | none =>
  match document.present? "vocoder" with
  | some _ => .ok omitted
  | none =>
  match _filter : document.present? "filter" with
  | some body => do
      let (mode, dials) ← filter? body
      filter mode dials <$> ofDocument body
  | none => .error (.unknownDefinition document)
termination_by sizeOf document
decreasing_by
  · have smaller := Document.sizeOf_present? _combined
    simp only [Document.list.sizeOf_spec] at smaller
    omega
  · exact Document.sizeOf_present? _panning
  · exact Document.sizeOf_present? _transpose
  · exact Document.sizeOf_present? _filter

/-- The definitions that documents spell; the first refusal counts. -/
def ofDocuments : List Document → Except DefinitionError (List Definition)
  | [] => .ok []
  | first :: rest => do
      let first ← ofDocument first
      let rest ← ofDocuments rest
      return first :: rest
termination_by documents => sizeOf documents

end

end Definition

end SynthGraph
