import SynthGraph.Proofs.Unit.Sockets

namespace SynthGraph

/-!
# What signals carry

The type of a signal says in which form emissions pass through its patches.  The
units of both catalogs send what their outputs promise, and read each input in
the form in which it is sent and in no other (`SignalUnit`).
-/

/-- Whether signals enter a graph at a unit. -/
def UnitLike.IsEntry {U : Type} [UnitLike U] (unit : U) : Prop :=
  UnitLike.kind unit = "input"

/-- Whether there is anything in an emission. -/
def Emission.contributes : Emission → Bool
  | nothing => false
  | _ => true

namespace Signal

/-- The emissions that a signal carries from a unit where signals enter, or from another. -/
inductive Carries (fromEntry : Prop) : Signal → Emission → Prop where
  | audio (content : Document) : Carries fromEntry .audio (.document content)
  | panning (content : Document) : Carries fromEntry .panning (.document content)
  | integer (content : Document) : Carries fromEntry .integer (.document content)
  | frequency (content : Document) : ¬ fromEntry → Carries fromEntry .frequency (.document content)
  | played : fromEntry → Carries fromEntry .frequency .nothing
  | clock : Carries fromEntry .clock .nothing
  | trigger (apply : Document → Document) : Carries fromEntry .trigger (.transform apply)

/-- No signal carries finished documents. -/
theorem Carries.ne_events
    {fromEntry : Prop}
    {signal : Signal}
    {emission : Emission}
    (carries : signal.Carries fromEntry emission)
    (documents : List Document) :
    emission ≠ .events documents := by
  cases carries <;> nofun

/--
Whether the same is read at a socket from two connections: the documents and
whether there is a patch, or the wrappers.  The clock is not read at all.
-/
def ReadsAlike (signal : Signal) (socket : String) (first second : Connections) : Prop :=
  match signal with
  | audio | panning | integer | frequency =>
      first.documents socket = second.documents socket ∧
        first.isConnected socket = second.isConnected socket
  | trigger => first.transforms socket = second.transforms socket
  | clock => True

/-- Whether nothing that arrives at a socket is lost when it is read. -/
def Lossless (signal : Signal) (socket : String) (arriving : Connections) : Prop :=
  match signal with
  | audio | panning | integer =>
      arriving.get socket = (arriving.documents socket).map .document
  | frequency =>
      (arriving.get socket).filter Emission.contributes =
        (arriving.documents socket).map .document
  | trigger => arriving.get socket = (arriving.transforms socket).map .transform
  | clock => (arriving.get socket).filter Emission.contributes = []

/-- What a signal carries is read without loss. -/
theorem lossless_of_carries
    {signal : Signal}
    {socket : String}
    {arriving : Connections}
    (carries :
      ∀ emission ∈ arriving.get socket, ∃ fromEntry, signal.Carries fromEntry emission) :
    signal.Lossless socket arriving := by
  cases signal with
  | audio | panning | integer =>
      rw [Lossless, Connections.documents, List.map_filterMap]
      conv_lhs => rw [← List.filterMap_some (l := arriving.get socket)]
      apply List.filterMap_congr
      intro emission member
      obtain ⟨_, carried⟩ := carries emission member
      cases carried
      rfl
  | frequency =>
      rw [Lossless, Connections.documents, List.map_filterMap, ← List.filterMap_eq_filter]
      apply List.filterMap_congr
      intro emission member
      obtain ⟨_, carried⟩ := carries emission member
      cases carried <;> rfl
  | trigger =>
      rw [Lossless, Connections.transforms, List.map_filterMap]
      conv_lhs => rw [← List.filterMap_some (l := arriving.get socket)]
      apply List.filterMap_congr
      intro emission member
      obtain ⟨_, carried⟩ := carries emission member
      cases carried
      rfl
  | clock =>
      rw [Lossless, List.filter_eq_nil_iff]
      intro emission member
      obtain ⟨_, carried⟩ := carries emission member
      cases carried
      nofun

end Signal

/-- Units that send and read what their sockets promise. -/
class SignalUnit (U : Type) [UnitLike U] : Prop extends LawfulUnit U where
  /-- What a unit emits is what its output carries. -/
  sends
    (context : UnitLike.Context U)
    (connections : Connections)
    (unit : U)
    (name : String)
    (signal : Signal) :
    .output name signal ∈ UnitLike.sockets unit →
      signal.Carries (UnitLike.IsEntry unit) (UnitLike.compile context connections unit)
  /-- A unit reads its inputs in the form of their signals only. -/
  reads (context : UnitLike.Context U) (first second : Connections) (unit : U) :
    (∀ socket ∈ UnitLike.inputs unit, socket.signal.ReadsAlike socket.name first second) →
      UnitLike.compile context first unit = UnitLike.compile context second unit

/-- Documents that arrive alike at a socket are alike in one. -/
theorem Connections.resolve?_congr
    {first second : Connections}
    {socket : String}
    (sameDocuments : first.documents socket = second.documents socket) :
    first.resolve? socket = second.resolve? socket := by
  rw [resolve?, resolve?, sameDocuments]

namespace InstrumentUnit

/-- Only the input is where the played frequency enters. -/
theorem isEntry_iff
    {unit : InstrumentUnit} :
    UnitLike.IsEntry unit ↔ unit = .input := by
  refine ⟨fun isEntry => ?_, fun isInput => isInput ▸ rfl⟩
  rw [UnitLike.IsEntry, UnitLike.kind] at isEntry
  cases unit with
  | input =>
      rfl
  | generator waveform _ =>
      cases waveform <;> simp [instUnitLike, kind, Waveform.kind] at isEntry
  | filter mode _ =>
      cases mode <;> simp [instUnitLike, kind, FilterMode.kind] at isEntry
  | output | wav | transpose | panning =>
      simp [instUnitLike, kind, outputKind, Sample.kind, Transpose.kind, Panning.kind] at isEntry

/-- What the output of a unit sends, if it has one. -/
def sent? : InstrumentUnit → Option Signal
  | output => none
  | input | transpose _ => some .frequency
  | generator _ _ | wav _ _ | filter _ _ => some .audio
  | panning => some .panning

theorem sent?_of_mem_sockets
    {unit : InstrumentUnit}
    {name : String}
    {signal : Signal}
    (isOutput : .output name signal ∈ UnitLike.sockets unit) :
    unit.sent? = some signal := by
  cases unit <;>
    simp_all [UnitLike.sockets, sockets, Generator.sockets, Filter.sockets, Transpose.sockets,
      Panning.sockets, Socket.input, Socket.output, sent?]

instance : SignalUnit InstrumentUnit where
  sends context connections unit name signal member := by
    have isSent := sent?_of_mem_sockets member
    cases unit with
    | input =>
        cases isSent
        exact .played rfl
    | output =>
        cases isSent
    | generator | wav | filter =>
        cases isSent
        exact .audio _
    | transpose =>
        cases isSent
        exact .frequency _ (by simp [isEntry_iff])
    | panning =>
        cases isSent
        exact .panning _
  reads context first second unit alike := by
    cases unit with
    | input | wav =>
        rfl
    | output =>
        have ⟨sameDocuments, _⟩ := alike (.input "IN" .audio) List.mem_cons_self
        have sameInput := Connections.resolve?_congr sameDocuments
        simp only [UnitLike.compile, compile, Socket.input] at sameInput ⊢
        rw [sameInput]
    | generator waveform dials =>
        have ⟨sameDocuments, samePatched⟩ := alike (.input "FREQ" .frequency) List.mem_cons_self
        have sameInput := Connections.resolve?_congr sameDocuments
        simp only [UnitLike.compile, compile, Generator.compile, Generator.body, Socket.input]
          at sameInput samePatched ⊢
        rw [sameInput, samePatched]
    | filter mode dials =>
        have ⟨sameDocuments, _⟩ := alike (.input "IN" .audio) List.mem_cons_self
        have sameInput := Connections.resolve?_congr sameDocuments
        simp only [UnitLike.compile, compile, Filter.compile, Socket.input] at sameInput ⊢
        rw [sameInput]
    | transpose dials =>
        have ⟨sameDocuments, _⟩ := alike (.input "FREQ IN" .frequency) List.mem_cons_self
        have sameInput := Connections.resolve?_congr sameDocuments
        simp only [UnitLike.compile, compile, Transpose.compile, Socket.input] at sameInput ⊢
        rw [sameInput]
    | panning =>
        have ⟨sameDocuments, _⟩ := alike (.input "FREQ" .frequency) List.mem_cons_self
        have sameInput := Connections.resolve?_congr sameDocuments
        simp only [UnitLike.compile, compile, Panning.compile, Socket.input] at sameInput ⊢
        rw [sameInput]

end InstrumentUnit

namespace SequenceUnit

instance : SignalUnit SequenceUnit where
  sends context connections unit name signal member := by
    cases unit with
    | input =>
        obtain ⟨_, rfl⟩ : name = "CLOCK" ∧ signal = .clock := by
          simpa [UnitLike.sockets, sockets, Socket.output] using member
        exact .clock
    | pulse =>
        obtain ⟨_, rfl⟩ : name = "TRIG" ∧ signal = .trigger := by
          simpa [UnitLike.sockets, sockets, Socket.input, Socket.output] using member
        exact .trigger _
    | range =>
        obtain ⟨_, rfl⟩ : name = "OUT" ∧ signal = .integer := by
          simpa [UnitLike.sockets, sockets, Socket.output] using member
        exact .integer _
    | playNote =>
        simp [UnitLike.sockets, sockets, Socket.input, Socket.output] at member
  reads context first second unit alike := by
    cases unit with
    | input | pulse | range =>
        rfl
    | playNote dials =>
        have sameTriggers := alike (.input "TRIG" .trigger) List.mem_cons_self
        have ⟨sameNotes, _⟩ := alike (.input "NOTE" .integer) (by simp [UnitLike.inputs,
          UnitLike.sockets, sockets, Socket.isInput, Socket.input])
        have ⟨sameVelocities, _⟩ := alike (.input "VEL" .integer) (by simp [UnitLike.inputs,
          UnitLike.sockets, sockets, Socket.isInput, Socket.input])
        simp only [UnitLike.compile, compile, PlayNote.compile, PlayNote.note, Socket.input,
          Signal.ReadsAlike] at sameTriggers sameNotes sameVelocities ⊢
        rw [sameTriggers, sameNotes, sameVelocities]

end SequenceUnit

end SynthGraph
