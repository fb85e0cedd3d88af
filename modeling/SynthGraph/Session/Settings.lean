import SynthGraph.Document
import SynthGraph.Json.Record

namespace SynthGraph

/-!
# Channel settings

What the mixer knows of a channel.  Settings are read from a document, either an
object or a list of the fields in declared order; every field may be left out.
-/

/-- The mixer settings of one channel and the instrument it plays. -/
structure ChannelSettings where
  channel : UInt8
  bank : Option UInt32
  instrument : Option UInt32
  reverb : Double
  reverbTime : Double
  reverbFeedback : Double
  tremelo : Double
  volume : Double
  panning : Double
  lowPassCutoff : Double
  highPassCutoff : Double
  grain : Option Document
  generator : Option Document
  deriving Repr

namespace ChannelSettings

/-- The volume of a channel that states none. -/
def defaultVolume : Double := 100

/-- The place between left and right of a channel that states none. -/
def defaultPanning : Double := 64

/-- The settings of a channel that states only its number. -/
def new (channel : UInt8) : ChannelSettings :=
  { channel := channel
    bank := none
    instrument := none
    reverb := 0
    reverbTime := 0
    reverbFeedback := 0
    tremelo := 0
    volume := defaultVolume
    panning := defaultPanning
    lowPassCutoff := 0
    highPassCutoff := 0
    grain := none
    generator := none }

/-- Whether everything but the number is as for a new channel. -/
def isDefault (settings : ChannelSettings) : Bool :=
  let plain := new settings.channel
  settings.bank = plain.bank
    && settings.instrument = plain.instrument
    && settings.reverb.same plain.reverb
    && settings.reverbTime.same plain.reverbTime
    && settings.reverbFeedback.same plain.reverbFeedback
    && settings.tremelo.same plain.tremelo
    && settings.volume.same plain.volume
    && settings.panning.same plain.panning
    && settings.lowPassCutoff.same plain.lowPassCutoff
    && settings.highPassCutoff.same plain.highPassCutoff
    && settings.grain.isNone
    && settings.generator.isNone

/-- The fields of settings in declared order. -/
def fieldNames : List String :=
  ["channel", "bank", "instrument", "reverb", "reverb_time", "reverb_feedback", "tremelo",
    "volume", "panning", "lpf_cutoff", "hpf_cutoff", "grain", "generator"]

/-- The fields of a record in declared order, each if it is there. -/
def slots? (names : List String) : Document → Option (List (Option Document))
  | .object fields => some (names.map fun name => Entries.get? name fields)
  | .list items => Record.positional? names.length items
  | _ => none

/-- A field that may be absent or null. -/
def optional?
    {α : Type}
    (read? : Document → Option α)
    (slot : Option Document) :
    Option (Option α) :=
  Record.optional? read? (slot.bind Document.nonNull?)

/-- The settings that a document spells. -/
def ofDocument? (document : Document) : Option ChannelSettings := do
  match ← slots? fieldNames document with
  | [channel, bank, instrument, reverb, reverbTime, reverbFeedback, tremelo, volume, panning,
      lowPassCutoff, highPassCutoff, grain, generator] =>
      let channel ← Record.defaulted? 0 Document.uint8? channel
      let bank ← optional? Document.uint32? bank
      let instrument ← optional? Document.uint32? instrument
      let reverb ← Record.defaulted? 0 Document.number? reverb
      let reverbTime ← Record.defaulted? 0 Document.number? reverbTime
      let reverbFeedback ← Record.defaulted? 0 Document.number? reverbFeedback
      let tremelo ← Record.defaulted? 0 Document.number? tremelo
      let volume ← Record.defaulted? defaultVolume Document.number? volume
      let panning ← Record.defaulted? defaultPanning Document.number? panning
      let lowPassCutoff ← Record.defaulted? 0 Document.number? lowPassCutoff
      let highPassCutoff ← Record.defaulted? 0 Document.number? highPassCutoff
      let grain ← optional? some grain
      let generator ← optional? some generator
      return ⟨channel, bank, instrument, reverb, reverbTime, reverbFeedback, tremelo, volume,
        panning, lowPassCutoff, highPassCutoff, grain, generator⟩
  | _ => none

/-- The settings of a list of documents. -/
def listOfDocument? (document : Document) : Option (List ChannelSettings) := do
  let items ← document.items?
  items.mapM ofDocument?

/-- An optional value as it is written. -/
def writeOptional {α : Type} (write : α → Json) : Option α → Json
  | some value => write value
  | none => .null

/-- The settings as they are written; a missing generator is left out. -/
def toJson (settings : ChannelSettings) : Json :=
  let natural := fun (value : UInt32) => Json.natural value.toNat
  let number := fun (value : Double) => Json.ofBinary Layout.double value
  .record
    (Record.present
      [("channel", some (.natural settings.channel.toNat)),
        ("bank", some (writeOptional natural settings.bank)),
        ("instrument", some (writeOptional natural settings.instrument)),
        ("reverb", some (number settings.reverb)),
        ("reverb_time", some (number settings.reverbTime)),
        ("reverb_feedback", some (number settings.reverbFeedback)),
        ("tremelo", some (number settings.tremelo)),
        ("volume", some (number settings.volume)),
        ("panning", some (number settings.panning)),
        ("lpf_cutoff", some (number settings.lowPassCutoff)),
        ("hpf_cutoff", some (number settings.highPassCutoff)),
        ("grain", some (writeOptional Document.toJson settings.grain)),
        ("generator", settings.generator.map Document.toJson)])

/-- The text of settings on one line. -/
def text (settings : ChannelSettings) : String :=
  settings.toJson.compactText

end ChannelSettings

end SynthGraph
