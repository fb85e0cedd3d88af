import SynthGraph.Proofs.Document.Kept
import SynthGraph.Proofs.Document.Records
import SynthGraph.Proofs.Number.ReadBack
import SynthGraph.Session.Basic

namespace SynthGraph

/-!
# Compiled channels are read back as settings

A compiled channel describes itself in a record with every field that settings
have.  Read back, the description gives the settings of the channel, its
instrument's document as the generator and each number as it was, but for the
sign of zero.

Main statement: `Channel.readsBack_ofSettings`.
-/

namespace Document

@[simp]
theorem uint8?_natural (value : UInt8) : (natural value.toNat).uint8? = some value := by
  have below : value.toNat < UInt8.size := value.toNat_lt
  simp [uint8?, natural, natural?, below]

@[simp]
theorem uint32?_natural (value : UInt32) : (natural value.toNat).uint32? = some value := by
  have below : value.toNat < UInt32.size := value.toNat_lt
  simp [uint32?, natural, natural?, below]

end Document

namespace ChannelSettings

/-- The fields of a record are found as they were written. -/
theorem slots?_record
    {entries : List (String × Document)}
    {names : List String}
    {values : List Document}
    (namesNodup : (entries.map Prod.fst).Nodup)
    (written : List.Forall₂ (fun name value => (name, value) ∈ entries) names values) :
    slots? names (.record entries) = some (values.map some) := by
  have found :
      names.map (fun name => (Document.record entries).field? name) = values.map some := by
    induction written with
    | nil => rfl
    | cons member _ inductionHypothesis =>
        rw [List.map_cons, List.map_cons, inductionHypothesis,
          Document.field?_record namesNodup member]
  exact congrArg some found

/-- All numbers of settings. -/
def numbers (settings : ChannelSettings) : List Double :=
  [settings.reverb, settings.reverbTime, settings.reverbFeedback, settings.tremelo,
    settings.volume, settings.panning, settings.lowPassCutoff, settings.highPassCutoff]

/-- Settings with finite numbers; the grain of a channel without one is not null. -/
structure Plain (settings : ChannelSettings) : Prop where
  finite : ∀ number ∈ settings.numbers, number.finite?.isSome
  grain : settings.grain ≠ some .null

section Reading

theorem kept_of_mem_slots?
    {document value : Document}
    {names : List String}
    {slots : List (Option Document)}
    (kept : document.Kept)
    (split : slots? names document = some slots)
    (member : some value ∈ slots) :
    value.Kept := by
  cases kept with
  | list each =>
      rw [slots?, Record.positional?] at split
      split at split
      · cases split
        rcases List.mem_append.mp member with isItem | isMissing
        · obtain ⟨item, isItem, same⟩ := List.mem_map.mp isItem
          exact Option.some.inj same ▸ each item isItem
        · cases List.eq_of_mem_replicate isMissing
      · cases split
  | object each =>
      cases split
      obtain ⟨name, _, found⟩ := List.mem_map.mp member
      exact each _ (Entries.mem_of_get? found)
  | _ => cases split

theorem isSome_finite?_of_defaulted?
    {absent number : Double}
    {slot : Option Document}
    (isFinite : absent.finite?.isSome)
    (kept : ∀ value, slot = some value → value.Kept)
    (isRead : Record.defaulted? absent Document.number? slot = some number) :
    number.finite?.isSome := by
  cases slot with
  | none =>
      cases isRead
      exact isFinite
  | some document => exact (kept document rfl).isSome_finite? isRead

theorem ne_null_of_optional?
    {slot value : Option Document}
    (isRead : optional? some slot = some value) :
    value ≠ some .null := by
  rintro rfl
  cases present : slot.bind Document.nonNull? with
  | none =>
      rw [optional?, present] at isRead
      cases isRead
  | some document =>
      rw [optional?, present] at isRead
      cases isRead
      obtain ⟨held, _, kept⟩ := Option.bind_eq_some_iff.mp present
      cases held <;> cases kept

/-- Settings that are read from a document are plain. -/
theorem plain_of_ofDocument?
    {document : Document}
    {settings : ChannelSettings}
    (kept : document.Kept)
    (isRead : ofDocument? document = some settings) :
    settings.Plain := by
  obtain ⟨slots, split, isRead⟩ := Option.bind_eq_some_iff.mp isRead
  have finite
      {absent number : Double}
      {slot : Option Document}
      (isFinite : absent.finite?.isSome)
      (member : slot ∈ slots)
      (isNumber : Record.defaulted? absent Document.number? slot = some number) :
      number.finite?.isSome := by
    refine isSome_finite?_of_defaulted? isFinite ?_ isNumber
    rintro value rfl
    exact kept_of_mem_slots? kept split member
  split at isRead
  · next =>
    obtain ⟨_, _, isRead⟩ := Option.bind_eq_some_iff.mp isRead
    obtain ⟨_, _, isRead⟩ := Option.bind_eq_some_iff.mp isRead
    obtain ⟨_, _, isRead⟩ := Option.bind_eq_some_iff.mp isRead
    obtain ⟨_, reverb, isRead⟩ := Option.bind_eq_some_iff.mp isRead
    obtain ⟨_, reverbTime, isRead⟩ := Option.bind_eq_some_iff.mp isRead
    obtain ⟨_, reverbFeedback, isRead⟩ := Option.bind_eq_some_iff.mp isRead
    obtain ⟨_, tremelo, isRead⟩ := Option.bind_eq_some_iff.mp isRead
    obtain ⟨_, volume, isRead⟩ := Option.bind_eq_some_iff.mp isRead
    obtain ⟨_, panning, isRead⟩ := Option.bind_eq_some_iff.mp isRead
    obtain ⟨_, lowPassCutoff, isRead⟩ := Option.bind_eq_some_iff.mp isRead
    obtain ⟨_, highPassCutoff, isRead⟩ := Option.bind_eq_some_iff.mp isRead
    obtain ⟨_, grain, isRead⟩ := Option.bind_eq_some_iff.mp isRead
    obtain ⟨_, _, isRead⟩ := Option.bind_eq_some_iff.mp isRead
    cases isRead
    have zero : (0 : Double).finite?.isSome := by
      decide +kernel
    have defaults : defaultVolume.finite?.isSome ∧ defaultPanning.finite?.isSome := by
      decide +kernel
    refine ⟨?_, ne_null_of_optional? grain⟩
    simp only [numbers, List.forall_mem_cons]
    exact ⟨finite zero (by simp) reverb, finite zero (by simp) reverbTime,
      finite zero (by simp) reverbFeedback, finite zero (by simp) tremelo,
      finite defaults.1 (by simp) volume, finite defaults.2 (by simp) panning,
      finite zero (by simp) lowPassCutoff, finite zero (by simp) highPassCutoff,
      List.forall_mem_nil _⟩
  · cases isRead

/-- Each of the settings is read from one of the items. -/
theorem exists_of_mem_mapM_ofDocument?
    {items : List Document}
    {records : List ChannelSettings}
    {settings : ChannelSettings}
    (areRead : items.mapM ofDocument? = some records)
    (member : settings ∈ records) :
    ∃ item ∈ items, ofDocument? item = some settings := by
  induction items generalizing records with
  | nil =>
      cases areRead
      cases member
  | cons item items inductionHypothesis =>
      rw [List.mapM_cons] at areRead
      obtain ⟨first, isFirst, areRead⟩ := Option.bind_eq_some_iff.mp areRead
      obtain ⟨others, areOthers, areRead⟩ := Option.bind_eq_some_iff.mp areRead
      cases areRead
      rcases List.mem_cons.mp member with rfl | isOther
      · exact ⟨item, List.mem_cons_self, isFirst⟩
      · obtain ⟨source, isItem, isRead⟩ := inductionHypothesis areOthers isOther
        exact ⟨source, List.mem_cons_of_mem item isItem, isRead⟩

/-- The settings in a session file are read from documents that are kept. -/
theorem exists_kept_of_read?
    {file : String}
    {document : Document}
    {records : List ChannelSettings}
    {settings : ChannelSettings}
    (isFile : Document.read? file = some document)
    (areRead : listOfDocument? document = some records)
    (member : settings ∈ records) :
    ∃ item : Document, item.Kept ∧ ofDocument? item = some settings := by
  obtain ⟨items, areItems, areRead⟩ := Option.bind_eq_some_iff.mp areRead
  obtain ⟨item, isItem, isRead⟩ := exists_of_mem_mapM_ofDocument? areRead member
  exact ⟨item, (Document.kept_of_read? isFile).items? areItems item isItem, isRead⟩

end Reading

/--
Settings with the same value in every field but the generator; numbers are the
same if they compare as equal.
-/
structure SameMix (settings other : ChannelSettings) : Prop where
  channel : settings.channel = other.channel
  bank : settings.bank = other.bank
  instrument : settings.instrument = other.instrument
  reverb : settings.reverb.same other.reverb
  reverbTime : settings.reverbTime.same other.reverbTime
  reverbFeedback : settings.reverbFeedback.same other.reverbFeedback
  tremelo : settings.tremelo.same other.tremelo
  volume : settings.volume.same other.volume
  panning : settings.panning.same other.panning
  lowPassCutoff : settings.lowPassCutoff.same other.lowPassCutoff
  highPassCutoff : settings.highPassCutoff.same other.highPassCutoff
  grain : settings.grain = other.grain

end ChannelSettings

namespace Channel

open ChannelSettings

/-- The values of a channel's description in the order in which settings declare them. -/
theorem slots?_description (channel : Channel) :
    slots? fieldNames channel.description =
      some
        ([.natural channel.number.toNat, optionalNatural channel.settings.bank,
          optionalNatural channel.settings.instrument, .number channel.settings.reverb,
          .number channel.settings.reverbTime, .number channel.settings.reverbFeedback,
          .number channel.settings.tremelo, .number channel.settings.volume,
          .number channel.settings.panning, .number channel.settings.lowPassCutoff,
          .number channel.settings.highPassCutoff, channel.settings.grain.getD .null,
          channel.generator].map some) :=
  slots?_record (by simp) (by simp [fieldNames])

/-- A written number is read back as an equal one. -/
theorem exists_defaulted?_number
    {number : Double}
    (isFinite : number.finite?.isSome)
    (absent : Double) :
    ∃ readBack,
      Record.defaulted? absent Document.number? (some (.number number)) = some readBack ∧
        readBack.same number := by
  cases number with
  | finite value =>
      refine ⟨_, Document.number?_number value, ?_⟩
      simp only [Binary.same, Binary.place?, value.place_unsignedZero, decide_true]
  | infinite | notANumber => cases isFinite

theorem optional?_optionalNatural
    (value : Option UInt32) :
    optional? Document.uint32? (some (optionalNatural value)) = some value := by
  cases value with
  | none => rfl
  | some value => exact congrArg (Option.map some) (Document.uint32?_natural value)

theorem optional?_some
    (document : Document) :
    optional? some (some document) = some document.nonNull? := by
  cases document <;> rfl

theorem nonNull?_getD_null
    {document : Option Document}
    (notNull : document ≠ some .null) :
    (document.getD .null).nonNull? = document := by
  cases document with
  | none => rfl
  | some document =>
      cases document with
      | null => exact absurd rfl notNull
      | _ => rfl

/-- A description is read back as the settings of the channel. -/
theorem exists_ofDocument?_description
    {channel : Channel}
    (plain : channel.settings.Plain)
    (sameNumber : channel.settings.channel = channel.number) :
    ∃ reread,
      ofDocument? channel.description = some reread ∧
        reread.SameMix channel.settings ∧
        reread.generator = channel.generator.nonNull? := by
  have finite := plain.finite
  simp only [numbers, List.forall_mem_cons] at finite
  obtain ⟨reverb, reverbTime, reverbFeedback, tremelo, volume, panning, lowPassCutoff,
    highPassCutoff, _⟩ := finite
  obtain ⟨_, isReverb, sameReverb⟩ := exists_defaulted?_number reverb 0
  obtain ⟨_, isTime, sameTime⟩ := exists_defaulted?_number reverbTime 0
  obtain ⟨_, isFeedback, sameFeedback⟩ := exists_defaulted?_number reverbFeedback 0
  obtain ⟨_, isTremelo, sameTremelo⟩ := exists_defaulted?_number tremelo 0
  obtain ⟨_, isVolume, sameVolume⟩ := exists_defaulted?_number volume defaultVolume
  obtain ⟨_, isPanning, samePanning⟩ := exists_defaulted?_number panning defaultPanning
  obtain ⟨_, isLowPass, sameLowPass⟩ := exists_defaulted?_number lowPassCutoff 0
  obtain ⟨_, isHighPass, sameHighPass⟩ := exists_defaulted?_number highPassCutoff 0
  refine ⟨⟨channel.number, channel.settings.bank, channel.settings.instrument, _, _, _, _, _, _,
    _, _, channel.settings.grain, channel.generator.nonNull?⟩, ?_,
    ⟨sameNumber.symm, rfl, rfl, sameReverb, sameTime, sameFeedback, sameTremelo, sameVolume,
      samePanning, sameLowPass, sameHighPass, rfl⟩, rfl⟩
  have slots := channel.slots?_description
  simp only [List.map_cons, List.map_nil] at slots
  rw [ofDocument?, slots]
  -- The fields are read one after the other, in declared order.
  change (Record.defaulted? 0 Document.uint8? _).bind _ = _
  refine Option.bind_eq_some_iff.mpr ⟨_, Document.uint8?_natural _, ?_⟩
  refine Option.bind_eq_some_iff.mpr ⟨_, optional?_optionalNatural _, ?_⟩
  refine Option.bind_eq_some_iff.mpr ⟨_, optional?_optionalNatural _, ?_⟩
  refine Option.bind_eq_some_iff.mpr ⟨_, isReverb, ?_⟩
  refine Option.bind_eq_some_iff.mpr ⟨_, isTime, ?_⟩
  refine Option.bind_eq_some_iff.mpr ⟨_, isFeedback, ?_⟩
  refine Option.bind_eq_some_iff.mpr ⟨_, isTremelo, ?_⟩
  refine Option.bind_eq_some_iff.mpr ⟨_, isVolume, ?_⟩
  refine Option.bind_eq_some_iff.mpr ⟨_, isPanning, ?_⟩
  refine Option.bind_eq_some_iff.mpr ⟨_, isLowPass, ?_⟩
  refine Option.bind_eq_some_iff.mpr ⟨_, isHighPass, ?_⟩
  refine Option.bind_eq_some_iff.mpr ⟨_, optional?_some _, ?_⟩
  refine Option.bind_eq_some_iff.mpr ⟨_, optional?_some _, ?_⟩
  rw [nonNull?_getD_null plain.grain]
  rfl

/-- What is loaded of settings is a channel with their number and themselves. -/
theorem exists_ofSettings
    {settings : ChannelSettings}
    (accepted :
      ∀ definition, settings.generator = some definition →
        ∃ instrument, Instrument.ofDocument definition = .ok instrument) :
    ∃ channel,
      ofSettings settings = .ok channel ∧
        channel.number = settings.channel ∧
        channel.settings = settings := by
  cases generator : settings.generator with
  | none =>
      refine ⟨⟨settings.channel, settings, some .new, [], []⟩, ?_, rfl, rfl⟩
      rw [ofSettings, generator]
  | some definition =>
      obtain ⟨instrument, isInstrument⟩ := accepted definition generator
      refine ⟨⟨settings.channel, settings, some instrument, [], []⟩, ?_, rfl, rfl⟩
      simp only [ofSettings, generator, isInstrument]
      rfl

/--
Channel settings that were read from a document as texts keep it
(`exists_kept_of_read?`), with a generator that is accepted if there is one, make
a channel whose description is read back as the same settings.  The generator
that is read back is the document of the channel's instrument, and there is none
if there is no such document or it is null.
-/
theorem readsBack_ofSettings
    {document : Document}
    {settings : ChannelSettings}
    (kept : document.Kept)
    (isRead : ofDocument? document = some settings)
    (accepted :
      ∀ definition, settings.generator = some definition →
        ∃ instrument, Instrument.ofDocument definition = .ok instrument) :
    ∃ channel description reread,
      ofSettings settings = .ok channel ∧
        channel.compile.field? "channel" = some description ∧
        ofDocument? description = some reread ∧
        reread.SameMix settings ∧
        reread.generator =
          (channel.instrument.bind Instrument.compile?).bind Document.nonNull? := by
  obtain ⟨channel, isChannel, sameNumber, rfl⟩ := exists_ofSettings accepted
  obtain ⟨reread, isReread, sameMix, generator⟩ :=
    exists_ofDocument?_description (plain_of_ofDocument? kept isRead) sameNumber.symm
  refine ⟨channel, channel.description, reread, isChannel, ?_, isReread, sameMix, ?_⟩
  · exact Document.field?_record (by simp) List.mem_cons_self
  · rw [generator, Channel.generator]
    cases channel.instrument.bind Instrument.compile? <;> rfl

/-- A session file with a sine in the second bank that has a volume of its own. -/
def sineFile : String :=
  "[\x7b\"bank\": 2, \"channel\": 3, \"generator\": \x7b\"sine\": \x7b\x7d\x7d, \"volume\": 90\x7d]"

/-- Whether settings are those of the file. -/
def isSine (settings : ChannelSettings) : Bool :=
  settings.channel = 3 ∧ settings.bank = some 2 ∧
    settings.generator.all fun definition => (Instrument.ofDocument definition).isOk

theorem isSine_sineFile :
    ((Document.read? sineFile).bind listOfDocument?).any (fun records => records.any isSine) := by
  decide +kernel

theorem exists_instrument_of_isSine
    {settings : ChannelSettings}
    {definition : Document}
    (sine : isSine settings)
    (generator : settings.generator = some definition) :
    ∃ instrument, Instrument.ofDocument definition = .ok instrument := by
  obtain ⟨_, _, accepted⟩ := of_decide_eq_true sine
  rw [generator, Option.all_some] at accepted
  cases isInstrument : Instrument.ofDocument definition with
  | ok instrument => exact ⟨instrument, rfl⟩
  | error cause =>
      rw [isInstrument] at accepted
      cases accepted

theorem readsBack_ofSettings_sine :
    ∃ document settings channel description reread,
      document.Kept ∧
        ofDocument? document = some settings ∧
        ofSettings settings = .ok channel ∧
        channel.compile.field? "channel" = some description ∧
        ofDocument? description = some reread ∧
        reread.SameMix settings ∧
        reread.channel = 3 ∧
        reread.bank = some 2 := by
  obtain ⟨records, areRead, anySine⟩ := (Option.any_eq_true _ _).mp isSine_sineFile
  obtain ⟨_, isFile, areRead⟩ := Option.bind_eq_some_iff.mp areRead
  obtain ⟨settings, member, sine⟩ := List.any_eq_true.mp anySine
  obtain ⟨document, kept, isRead⟩ := exists_kept_of_read? isFile areRead member
  obtain ⟨isThird, isSecond, _⟩ := of_decide_eq_true sine
  obtain ⟨channel, description, reread, isChannel, isDescription, isReread, sameMix, _⟩ :=
    readsBack_ofSettings kept isRead fun definition generator =>
      exists_instrument_of_isSine sine generator
  exact ⟨document, settings, channel, description, reread, kept, isRead, isChannel,
    isDescription, isReread, sameMix, sameMix.channel.trans isThird, sameMix.bank.trans isSecond⟩

end Channel

end SynthGraph
