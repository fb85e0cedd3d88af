import SynthGraph.Proofs.Document.Records
import SynthGraph.Proofs.Sequence.Automation
import SynthGraph.Proofs.Session.Actions

namespace SynthGraph

/-!
# How sessions are assembled

A session has a channel for each of its settings, in order, and one for
percussion if no settings are for that.  Whatever is done with it, its document
tells of each of these channels once and then of all that they play, channel
after channel: what was routed to the channel, and behind that its own sequences
as they were added (`Session.assembled_ofSettings`).
-/

/-- Why the generator of settings is rejected, if it is. -/
def ChannelSettings.refusal? (settings : ChannelSettings) : Option DefinitionError :=
  settings.generator.bind fun definition =>
    match Instrument.ofDocument definition with
    | .ok _ => none
    | .error cause => some cause

namespace Channel

/-- Settings are refused exactly for their generator. -/
theorem ofSettings_error_iff
    {settings : ChannelSettings}
    {cause : DefinitionError} :
    ofSettings settings = .error cause ↔ settings.refusal? = some cause := by
  rw [ofSettings, ChannelSettings.refusal?]
  cases settings.generator with
  | none => simp
  | some definition =>
      cases isRead : Instrument.ofDocument definition <;>
        simp [isRead, bind, Except.bind, pure, Except.pure]

/-- Settings make a channel with their number that has an instrument and nothing else yet. -/
theorem exists_of_ofSettings
    {settings : ChannelSettings}
    {channel : Channel}
    (isLoaded : ofSettings settings = .ok channel) :
    ∃ instrument, channel = ⟨settings.channel, settings, some instrument, [], []⟩ := by
  rw [ofSettings] at isLoaded
  split at isLoaded
  · next definition _ =>
    obtain ⟨instrument, _, isLoaded⟩ := bind_eq_ok_iff.mp isLoaded
    cases isLoaded
    exact ⟨instrument, rfl⟩
  · cases isLoaded
    exact ⟨_, rfl⟩

theorem field?_compile_channel (channel : Channel) :
    channel.compile.field? "channel" = some channel.description :=
  Document.field?_record (by simp) (by simp)

theorem field?_compile_sequences (channel : Channel) :
    channel.compile.field? "sequences" = some (.list channel.compiledSequences) :=
  Document.field?_record (by simp) (by simp)

end Channel

namespace Session

section Loading

/-- The channel of percussion with the settings of its number, unless settings are for it. -/
def percussion (records : List ChannelSettings) : List Channel :=
  if percussionChannel ∈ records.map ChannelSettings.channel then
    []
  else
    [.new percussionChannel]

/-- The settings are loaded in order. -/
def Loads (records : List ChannelSettings) (channels : List Channel) : Prop :=
  List.Forall₂ (fun settings channel => Channel.ofSettings settings = .ok channel) records channels

theorem channelsOf_error_iff
    {records : List ChannelSettings}
    {cause : DefinitionError} :
    channelsOf records = .error cause ↔
      records.findSome? ChannelSettings.refusal? = some cause := by
  induction records with
  | nil => simp [channelsOf]
  | cons settings rest inductionHypothesis =>
      rw [channelsOf, List.findSome?_cons]
      cases isLoaded : Channel.ofSettings settings with
      | error first =>
          rw [Channel.ofSettings_error_iff.mp isLoaded]
          simp [bind, Except.bind]
      | ok channel =>
          have accepted : settings.refusal? = none := by
            rw [Option.eq_none_iff_forall_ne_some]
            intro other refused
            cases isLoaded.symm.trans (Channel.ofSettings_error_iff.mpr refused)
          simp only [accepted, ← inductionHypothesis]
          cases channelsOf rest <;> simp [bind, Except.bind, pure, Except.pure]

theorem loads_of_channelsOf
    {records : List ChannelSettings}
    {channels : List Channel}
    (areLoaded : channelsOf records = .ok channels) :
    Loads records channels := by
  induction records generalizing channels with
  | nil =>
      cases areLoaded
      exact .nil
  | cons settings rest inductionHypothesis =>
      obtain ⟨channel, isLoaded, areLoaded⟩ := bind_eq_ok_iff.mp areLoaded
      obtain ⟨others, othersLoaded, isWhole⟩ := bind_eq_ok_iff.mp areLoaded
      cases isWhole
      exact .cons isLoaded (inductionHypothesis othersLoaded)

theorem Loads.settings
    {records : List ChannelSettings}
    {channels : List Channel}
    (loads : Loads records channels) :
    channels.map Channel.settings = records := by
  induction loads with
  | nil => rfl
  | cons isLoaded _ inductionHypothesis =>
      obtain ⟨instrument, rfl⟩ := Channel.exists_of_ofSettings isLoaded
      rw [List.map_cons, inductionHypothesis]

/-- A channel that has just been loaded or made: numbered as in its settings, and empty. -/
structure Fresh (channel : Channel) : Prop where
  number : channel.number = channel.settings.channel
  sequences : channel.sequences = []
  definitions : channel.definitions = []

theorem Loads.fresh
    {records : List ChannelSettings}
    {channels : List Channel}
    (loads : Loads records channels) :
    ∀ channel ∈ channels, Fresh channel := by
  induction loads with
  | nil => exact List.forall_mem_nil _
  | cons isLoaded _ inductionHypothesis =>
      obtain ⟨instrument, rfl⟩ := Channel.exists_of_ofSettings isLoaded
      exact List.forall_mem_cons.mpr ⟨⟨rfl, rfl, rfl⟩, inductionHypothesis⟩

theorem Loads.numbers
    {records : List ChannelSettings}
    {channels : List Channel}
    (loads : Loads records channels) :
    channels.map Channel.number = records.map ChannelSettings.channel := by
  rw [← loads.settings, List.map_map]
  exact List.map_congr_left fun channel member => (loads.fresh channel member).number

/-- A session is refused for the first generator that is rejected. -/
theorem ofSettings_error_iff
    {records : List ChannelSettings}
    {cause : DefinitionError} :
    ofSettings records = .error cause ↔
      records.findSome? ChannelSettings.refusal? = some cause := by
  rw [← channelsOf_error_iff, ofSettings]
  cases channelsOf records with
  | error first => simp [bind, Except.bind]
  | ok channels =>
      simp only [bind, Except.bind, pure, Except.pure]
      split <;> simp

/-- A session has the channels of its settings and, if there is none for it, one for percussion. -/
theorem exists_loads_of_ofSettings
    {records : List ChannelSettings}
    {session : Session}
    (isLoaded : ofSettings records = .ok session) :
    ∃ channels, Loads records channels ∧ session.channels = channels ++ percussion records := by
  obtain ⟨channels, areLoaded, isLoaded⟩ := bind_eq_ok_iff.mp isLoaded
  have loads := loads_of_channelsOf areLoaded
  have isFound_iff :
      (channel? { new with channels := channels } percussionChannel).isSome ↔
        percussionChannel ∈ records.map ChannelSettings.channel := by
    rw [← loads.numbers, channel?, List.find?_isSome, List.mem_map]
    simp
  refine ⟨channels, loads, ?_⟩
  rw [percussion]
  simp only at isLoaded
  split at isLoaded
  · next isFound =>
    obtain rfl := Except.ok.inj isLoaded
    rw [if_pos (isFound_iff.mp isFound), List.append_nil]
  · next notFound =>
    obtain rfl := Except.ok.inj isLoaded
    rw [if_neg (mt isFound_iff.mpr notFound)]
    rfl

end Loading

section Compiling

/-- The document of a session tells of every channel. -/
theorem field?_compile_channels (session : Session) :
    session.compile.field? "channels" =
      some (.list (session.channels.map Channel.description)) := by
  have descriptions :
      (session.channels.map Channel.compile).filterMap (·.field? "channel") =
        session.channels.map Channel.description := by
    simp only [List.filterMap_map, Function.comp_def, Channel.field?_compile_channel,
      List.filterMap_eq_map']
  rw [compile, descriptions]
  exact Document.field?_record (by simp) (by simp)

/-- The document of a session holds all that its channels play. -/
theorem field?_compile_sequences (session : Session) :
    session.compile.field? "sequences" =
      some (.list (session.channels.flatMap Channel.compiledSequences)) := by
  have sequences :
      ((session.channels.map Channel.compile).flatMap fun channel =>
          ((channel.field? "sequences").bind Document.items?).getD []) =
        session.channels.flatMap Channel.compiledSequences := by
    simp only [List.flatMap_map, Channel.field?_compile_sequences, Option.bind_some,
      Document.items?, Option.getD_some]
  rw [compile, sequences]
  exact Document.field?_record (by simp) (by simp)

end Compiling

/--
What has become of a session that was loaded from settings when actions were
performed on it.
-/
structure Assembled
    (records : List ChannelSettings)
    (start : Session)
    (actions : List Action)
    (session : Session) :
    Prop where
  /-- At first each of the settings made a channel, and percussion was added if it was missing. -/
  loaded : ∃ channels, Loads records channels ∧ start.channels = channels ++ percussion records
  /-- The first channel with a number got all that was done under it, other ones got nothing. -/
  channels_eq :
    session.channels =
      start.channels.mapIdx fun index channel =>
        if channel.number ∈ (start.channels.take index).map Channel.number then
          channel
        else
          channel.after actions
  /-- The document tells of every channel, -/
  descriptions :
    session.compile.field? "channels" = some (.list (session.channels.map Channel.description))
  /-- in the order of the settings, percussion behind them, -/
  settings :
    session.channels.map Channel.settings =
      records ++ (percussion records).map Channel.settings
  /-- with the number in the settings, -/
  number : ∀ channel ∈ session.channels, channel.number = channel.settings.channel
  /-- and percussion that was added is silent if it was given no instrument. -/
  silent :
    percussionChannel ∉ records.map ChannelSettings.channel →
      (∀ instrument, .visit percussionChannel (.equip instrument) ∉ actions) →
        ∀ channel ∈ session.channels, channel.number = percussionChannel →
          channel.description.field? "generator" = some .null
  /-- For every channel the document holds what was routed to it, and then its own sequences. -/
  sequences :
    session.compile.field? "sequences" =
      some (.list (session.channels.flatMap fun channel =>
        channel.definitions ++ channel.sequences.flatMap Sequence.compile))
  /-- What a channel's own sequences play, they play on the channel. -/
  notes :
    ∀ channel ∈ session.channels, ∀ sequence ∈ channel.sequences,
      ∀ document ∈ sequence.compile,
        ∃ body,
          document.repeatedNote? = some body ∧
            body.field? "channel" = some (.natural channel.number.toNat)

section Assembling

variable
  {records : List ChannelSettings}
  {start : Session}
  {actions : List Action}

theorem fresh_of_ofSettings
    (isLoaded : ofSettings records = .ok start) :
    ∀ channel ∈ start.channels, Fresh channel := by
  obtain ⟨channels, loads, areChannels⟩ := exists_loads_of_ofSettings isLoaded
  rw [areChannels, List.forall_mem_append]
  refine ⟨loads.fresh, fun channel member => ?_⟩
  rw [percussion] at member
  split at member
  · cases member
  · obtain rfl := List.mem_singleton.mp member
    exact ⟨rfl, rfl, rfl⟩

/-- After actions a first channel is what it has become by them, any other one is as it was. -/
theorem channels_run_of_ofSettings
    (isLoaded : ofSettings records = .ok start)
    (actions : List Action) :
    (start.run actions).channels =
      start.channels.mapIdx fun index channel =>
        if channel.number ∈ (start.channels.take index).map Channel.number then
          channel
        else
          channel.after actions := by
  rw [channels_run]
  refine List.mapIdx_eq_mapIdx_iff.mpr fun index bound => ?_
  have fresh := fresh_of_ofSettings isLoaded _ (List.getElem_mem bound)
  rw [Channel.foldl_passed _ fresh.definitions actions]

theorem exists_origin
    {channel : Channel}
    (isLoaded : ofSettings records = .ok start)
    (member : channel ∈ (start.run actions).channels) :
    ∃ origin ∈ start.channels, channel = origin ∨ channel = origin.after actions := by
  rw [channels_run_of_ofSettings isLoaded] at member
  obtain ⟨index, bound, rfl⟩ := List.mem_mapIdx.mp member
  refine ⟨start.channels[index], List.getElem_mem bound, ?_⟩
  split
  · exact Or.inl rfl
  · exact Or.inr rfl

theorem settings_run
    (isLoaded : ofSettings records = .ok start)
    (actions : List Action) :
    (start.run actions).channels.map Channel.settings =
      records ++ (percussion records).map Channel.settings := by
  obtain ⟨channels, loads, areChannels⟩ := exists_loads_of_ofSettings isLoaded
  have atFirst :
      records ++ (percussion records).map Channel.settings =
        start.channels.map Channel.settings := by
    rw [areChannels, List.map_append, loads.settings]
  rw [atFirst, channels_run_of_ofSettings isLoaded]
  refine map_mapIdx_eq_map (fun index channel => ?_) start.channels
  split
  · rfl
  · exact channel.settings_after actions

theorem number_of_mem_run
    {channel : Channel}
    (isLoaded : ofSettings records = .ok start)
    (member : channel ∈ (start.run actions).channels) :
    channel.number = channel.settings.channel := by
  obtain ⟨origin, isOrigin, rfl | rfl⟩ := exists_origin isLoaded member
  · exact (fresh_of_ofSettings isLoaded channel isOrigin).number
  · rw [origin.number_after, origin.settings_after]
    exact (fresh_of_ofSettings isLoaded origin isOrigin).number

/-- A percussion channel that was added has no instrument as long as it is given none. -/
theorem instrument_of_percussion
    {channel : Channel}
    (isLoaded : ofSettings records = .ok start)
    (noSettings : percussionChannel ∉ records.map ChannelSettings.channel)
    (unequipped : ∀ instrument, .visit percussionChannel (.equip instrument) ∉ actions)
    (member : channel ∈ (start.run actions).channels)
    (isPercussion : channel.number = percussionChannel) :
    channel.instrument = none := by
  obtain ⟨channels, loads, areChannels⟩ := exists_loads_of_ofSettings isLoaded
  have isAdded :
      ∀ origin ∈ start.channels, origin.number = percussionChannel →
        origin = .new percussionChannel := by
    intro origin isOrigin sameNumber
    rw [areChannels, percussion, if_neg noSettings] at isOrigin
    rcases List.mem_append.mp isOrigin with isRecord | isLast
    · rw [← loads.numbers, ← sameNumber] at noSettings
      exact absurd (List.mem_map_of_mem isRecord) noSettings
    · exact List.mem_singleton.mp isLast
  obtain ⟨origin, isOrigin, rfl | rfl⟩ := exists_origin isLoaded member
  · rw [isAdded channel isOrigin isPercussion]
    rfl
  · rw [origin.number_after] at isPercussion
    have none : origin.instrument = none := by
      rw [isAdded origin isOrigin isPercussion]
      rfl
    exact origin.instrument_after none (isPercussion ▸ unequipped)

theorem wired_of_mem_run
    {channel : Channel}
    (isLoaded : ofSettings records = .ok start)
    (drawn : ∀ action ∈ actions, action.Drawn)
    (member : channel ∈ (start.run actions).channels) :
    channel.Wired := by
  obtain ⟨origin, isOrigin, isChannel⟩ := exists_origin isLoaded member
  have wired : origin.Wired := by
    rw [Channel.Wired, (fresh_of_ofSettings isLoaded origin isOrigin).sequences]
    exact List.forall_mem_nil _
  rcases isChannel with rfl | rfl
  · exact wired
  · exact wired.after drawn

end Assembling

/--
A session of settings is refused exactly for the first generator that is
rejected.  Otherwise, whatever is done with it, nothing is lost and nothing
changes its place.
-/
theorem assembled_ofSettings
    (records : List ChannelSettings) :
    (∀ cause,
        ofSettings records = .error cause ↔
          records.findSome? ChannelSettings.refusal? = some cause) ∧
      ∀ start,
        ofSettings records = .ok start →
          ∀ actions : List Action,
            (∀ action ∈ actions, action.Drawn) →
              Assembled records start actions (start.run actions) := by
  refine ⟨fun cause => ofSettings_error_iff, fun start isLoaded actions drawn => ?_⟩
  refine ⟨exists_loads_of_ofSettings isLoaded, channels_run_of_ofSettings isLoaded actions,
    field?_compile_channels _, settings_run isLoaded actions,
    fun channel => number_of_mem_run isLoaded, ?_, field?_compile_sequences _, ?_⟩
  · intro noSettings unequipped channel member isPercussion
    have silent := instrument_of_percussion isLoaded noSettings unequipped member isPercussion
    have generator : channel.generator = .null := by
      rw [Channel.generator, silent]
      rfl
    rw [← generator]
    exact Document.field?_record (by simp) (by simp)
  · intro channel member sequence isSequence document isDocument
    obtain ⟨plays, reachable⟩ := wired_of_mem_run isLoaded drawn member sequence isSequence
    rw [← plays]
    exact Sequence.channel_of_mem_compile reachable.storable.wellPatched
      reachable.storable.numbered isDocument

/-- Two channels of one number and no percussion. -/
def doubled : List ChannelSettings :=
  [.new 3, .new 3, .new 5]

/-- A beat on the first channel, a part for each number, and a sequence for percussion. -/
def busy : List Action :=
  [.visit 3 .addSequence,
    .visit 3 (.edit 0 fun graph => graph.run Sequence.crossing),
    .assign [.keyed "play_note" [("channel", .natural 5)]],
    .visit 9 .addSequence,
    .visit 3 .addSequence]

theorem drawn_busy : ∀ action ∈ busy, action.Drawn := by
  simp only [busy, List.forall_mem_cons]
  refine ⟨trivial, fun graph => .run (Operation.drawn_of_isPlain (by decide +kernel)), trivial,
    trivial, trivial, List.forall_mem_nil _⟩

theorem assembled_ofSettings_doubled :
    ∃ start,
      ofSettings doubled = .ok start ∧
        Assembled doubled start busy (start.run busy) ∧
        (start.run busy).channels.map (fun channel => (channel.number, channel.sequences.length)) =
          [(3, 2), (3, 0), (5, 0), (9, 1)] := by
  let start : Session :=
    { new with
      channels :=
        [⟨3, .new 3, some .new, [], []⟩, ⟨3, .new 3, some .new, [], []⟩,
          ⟨5, .new 5, some .new, [], []⟩, .new 9] }
  have isLoaded : ofSettings doubled = .ok start := rfl
  have assembled := (assembled_ofSettings doubled).2 start isLoaded busy drawn_busy
  refine ⟨start, isLoaded, assembled, ?_⟩
  rw [assembled.channels_eq]
  decide +kernel

end Session

end SynthGraph
