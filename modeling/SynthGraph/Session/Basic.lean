import SynthGraph.Definition.Expansion
import SynthGraph.Sequence
import SynthGraph.Session.Routing
import SynthGraph.Session.Settings

namespace SynthGraph

/-!
# Sessions

A session is a song: its tempo and its channels, each with settings, an
instrument and sequences.  It compiles to the one document that a sequencer
plays.  Channels are found by number, and the first one counts.
-/

/-- A channel of a session; its definitions are routed to it and passed on as they are. -/
structure Channel where
  number : UInt8
  settings : ChannelSettings
  instrument : Option Instrument
  sequences : List Sequence
  definitions : List Document
  deriving Repr

namespace Channel

/-- A channel without instrument, with the settings of its number. -/
def new (number : UInt8) : Channel :=
  ⟨number, .new number, none, [], []⟩

/-- The channel of some settings, with the instrument they define or a new one. -/
def ofSettings (settings : ChannelSettings) : Except DefinitionError Channel :=
  match settings.generator with
  | some definition => do
      let instrument ← Instrument.ofDocument definition
      return ⟨settings.channel, settings, some instrument, [], []⟩
  | none => .ok ⟨settings.channel, settings, some .new, [], []⟩

/-- Add a new sequence that plays on the channel. -/
def addSequence (channel : Channel) : Channel :=
  { channel with sequences := channel.sequences ++ [.new channel.number] }

/-- An optional natural number, or null. -/
def optionalNatural : Option UInt32 → Document
  | some value => .natural value.toNat
  | none => .null

/-- The document of the channel's instrument, or null. -/
def generator (channel : Channel) : Document :=
  (channel.instrument.bind Instrument.compile?).getD .null

/-- The document of the channel itself. -/
def description (channel : Channel) : Document :=
  let settings := channel.settings
  .record
    [("channel", .natural channel.number.toNat),
      ("generator", channel.generator),
      ("bank", optionalNatural settings.bank),
      ("instrument", optionalNatural settings.instrument),
      ("reverb", .number settings.reverb),
      ("reverb_time", .number settings.reverbTime),
      ("reverb_feedback", .number settings.reverbFeedback),
      ("tremelo", .number settings.tremelo),
      ("volume", .number settings.volume),
      ("panning", .number settings.panning),
      ("lpf_cutoff", .number settings.lowPassCutoff),
      ("hpf_cutoff", .number settings.highPassCutoff),
      ("grain", settings.grain.getD .null)]

/-- The routed definitions, and then the documents of the channel's own sequences. -/
def compiledSequences (channel : Channel) : List Document :=
  channel.definitions ++ channel.sequences.flatMap Sequence.compile

/-- The channel with its sequences. -/
def compile (channel : Channel) : Document :=
  .record
    [("channel", channel.description), ("sequences", .list channel.compiledSequences)]

end Channel

/-- A song: tempo, ticks per beat and channels. -/
structure Session where
  bpm : Double
  granularity : UInt32
  channels : List Channel
  deriving Repr

namespace Session

/-- The channel of percussion, which every session of channel settings has. -/
def percussionChannel : UInt8 := 9

/-- A session without channels. -/
def new : Session :=
  ⟨120, 64, []⟩

/-- The first channel with a number. -/
def channel? (session : Session) (number : UInt8) : Option Channel :=
  session.channels.find? (·.number = number)

/-- Add a channel after the others. -/
def push (session : Session) (channel : Channel) : Session :=
  { session with channels := session.channels ++ [channel] }

/-- The channels of settings, in order; the first refusal counts. -/
def channelsOf : List ChannelSettings → Except DefinitionError (List Channel)
  | [] => .ok []
  | first :: rest => do
      let channel ← Channel.ofSettings first
      let channels ← channelsOf rest
      return channel :: channels

/--
The session of channel settings.  A channel for percussion, without instrument,
is added unless one of the settings is for it.
-/
def ofSettings (settings : List ChannelSettings) : Except DefinitionError Session := do
  let session : Session := { new with channels := ← channelsOf settings }
  if (session.channel? percussionChannel).isSome then
    return session
  else
    return session.push (.new percussionChannel)

/-- Change the first channel with a number in a list of channels. -/
def updateFirst (number : UInt8) (update : Channel → Channel) : List Channel → List Channel
  | [] => []
  | channel :: rest =>
      if channel.number = number then
        update channel :: rest
      else
        channel :: updateFirst number update rest

/-- Change the first channel with a number. -/
def updateChannel (session : Session) (number : UInt8) (update : Channel → Channel) : Session :=
  { session with channels := updateFirst number update session.channels }

/-- Give a routed part to its channel. -/
def deliver (session : Session) (part : UInt8 × Document) : Session :=
  session.updateChannel part.1 fun channel =>
    { channel with definitions := channel.definitions ++ [part.2] }

/-- The session without routed definitions. -/
def withoutDefinitions (session : Session) : Session :=
  { session with
    channels := session.channels.map fun channel => { channel with definitions := [] } }

/-- How the session routes definitions. -/
def routing (session : Session) (definitions : List Document) : Routing :=
  Routing.routeAll (session.channels.map Channel.number) definitions

/--
Route definitions to the channels, in place of what was routed before.  Handed
back is how many parts were dropped.
-/
def assign (session : Session) (definitions : List Document) : Nat × Session :=
  let routing := session.routing definitions
  (routing.dropped, routing.parts.foldl deliver session.withoutDefinitions)

/--
The document of the whole session.  The documents of its channels are taken
apart: what they say of the channels comes first, all their sequences behind it.
-/
def compile (session : Session) : Document :=
  let channels := session.channels.map Channel.compile
  .record
    [("bpm", .number session.bpm),
      ("granularity", .natural session.granularity.toNat),
      ("channels", .list (channels.filterMap (·.field? "channel"))),
      ("sequences", .list (channels.flatMap fun channel =>
        ((channel.field? "sequences").bind Document.items?).getD []))]

end Session

end SynthGraph
