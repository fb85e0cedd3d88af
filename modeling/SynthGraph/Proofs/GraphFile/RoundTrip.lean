import SynthGraph.Proofs.GraphFile.Editing

namespace SynthGraph

/-!
# Files of instruments and sequences

However an instrument or a sequence came about, the file of it gives it back with
its modules numbered from zero.  It compiles to the same documents, and its own
file is the same (`GraphFile.rebuilds_captured`).
-/

open CatalogUnit

namespace Instrument

/-- Instruments that can come about: made or loaded, then changed in any order. -/
inductive Reachable : Instrument → Prop where
  | new : Reachable .new
  | empty : Reachable (.ofGraph .empty)
  | document {document : Document} {instrument : Instrument} :
      Instrument.ofDocument document = .ok instrument → Reachable instrument
  | file {file : GraphFile} {instrument : Instrument} :
      file.toInstrument = .ok instrument → Reachable instrument
  | edit {instrument : Instrument} {graph : Graph InstrumentUnit} :
      Reachable instrument → instrument.graph.Edit graph →
        Reachable { instrument with graph := graph }
  | label {instrument : Instrument} (name : Option String) (bankIndex : Option UInt32) :
      Reachable instrument →
        Reachable { instrument with name := name, bankIndex := bankIndex }

theorem Reachable.storable
    {instrument : Instrument}
    (reachable : instrument.Reachable) :
    instrument.graph.Storable := by
  induction reachable with
  | new =>
      exact storable_new
  | empty =>
      exact Graph.Storable.empty
  | document accepted =>
      obtain ⟨definition, isDefinition, _⟩ := bind_eq_ok_iff.mp accepted
      rw [ofDocument_eq isDefinition] at accepted
      cases accepted
      exact (Definition.rewrites_ofDocument _ isDefinition).sound.storable_loaded
  | file accepted =>
      obtain ⟨_, _, rest⟩ := bind_eq_ok_iff.mp accepted
      obtain ⟨graph, rebuilt, done⟩ := bind_eq_ok_iff.mp rest
      cases done
      exact Graph.storable_rebuild rebuilt
  | edit _ isEdit inductionHypothesis =>
      exact inductionHypothesis.edit isEdit
  | label _ _ _ inductionHypothesis =>
      exact inductionHypothesis

/-- Any run of operations may follow, and any name and bank slot may be given. -/
theorem reachable_run
    {operations : List (Operation InstrumentUnit)}
    (drawn : ∀ operation ∈ operations, operation.Drawn)
    (name : Option String)
    (bankIndex : Option UInt32) :
    Reachable ⟨name, bankIndex, Instrument.new.graph.run operations⟩ :=
  .label name bankIndex (.edit .new (.run drawn))

/-- An instrument compiles to the same document whatever the numbers of its modules are. -/
theorem compile?_renumber
    {number : ModuleId → ModuleId}
    (injective : Function.Injective number)
    (next : ModuleId)
    (instrument : Instrument) :
    compile? { instrument with graph := instrument.graph.renumber number next } =
      instrument.compile? := by
  simp only [compile?, Graph.findKind?_renumber]
  cases instrument.graph.findKind? InstrumentUnit.outputKind with
  | none =>
      rfl
  | some output =>
      have reduced :=
        Graph.reduce_renumber injective next instrument.graph [output] ()
      rw [List.map_singleton] at reduced
      simp [emissions, reduced, Emissions.get?_renumber injective, label]

end Instrument

namespace Sequence

/-- Sequences that can come about: made or loaded, then changed in any order. -/
inductive Reachable : Sequence → Prop where
  | new (channel : UInt8) : Reachable (.new channel)
  | empty (channel : UInt8) : Reachable ⟨channel, .empty⟩
  | file {file : GraphFile} {sequence : Sequence} :
      file.toSequence = .ok sequence → Reachable sequence
  | edit {sequence : Sequence} {graph : Graph SequenceUnit} :
      Reachable sequence → sequence.graph.Edit graph →
        Reachable { sequence with graph := graph }
  | assign {sequence : Sequence} (channel : UInt8) :
      Reachable sequence → Reachable { sequence with channel := channel }

theorem Reachable.storable
    {sequence : Sequence}
    (reachable : sequence.Reachable) :
    sequence.graph.Storable := by
  induction reachable with
  | new channel =>
      exact storable_new channel
  | empty channel =>
      exact Graph.Storable.empty
  | file accepted =>
      obtain ⟨_, _, rest⟩ := bind_eq_ok_iff.mp accepted
      obtain ⟨graph, rebuilt, done⟩ := bind_eq_ok_iff.mp rest
      cases done
      exact Graph.storable_rebuild rebuilt
  | edit _ isEdit inductionHypothesis =>
      exact inductionHypothesis.edit isEdit
  | assign _ _ inductionHypothesis =>
      exact inductionHypothesis

theorem reachable_run
    {operations : List (Operation SequenceUnit)}
    (drawn : ∀ operation ∈ operations, operation.Drawn)
    (channel : UInt8) :
    Reachable ⟨channel, (Sequence.new channel).graph.run operations⟩ :=
  .edit (.new channel) (.run drawn)

/-- A sequence compiles to the same documents whatever the numbers of its modules are. -/
theorem compile_renumber
    {number : ModuleId → ModuleId}
    (injective : Function.Injective number)
    (next : ModuleId)
    (sequence : Sequence) :
    compile { sequence with graph := sequence.graph.renumber number next } =
      sequence.compile := by
  have sameSinks :
      sinks { sequence with graph := sequence.graph.renumber number next } =
        sequence.sinks.map number :=
    Graph.ids_filter_renumber SequenceUnit.isSink number next sequence.graph
  rw [compile, sameSinks]
  simp only [Graph.reduce_renumber injective next sequence.graph sequence.sinks sequence.channel,
    Emissions.renumber, List.flatMap_map, compile]

end Sequence

namespace GraphFile

/-- The file of a storable instrument gives it back with its modules numbered from zero. -/
theorem rebuilt_ofInstrument
    {instrument : Instrument}
    (storable : instrument.graph.Storable)
    (representable : instrument.graph.modules.length ≤ UInt64.size) :
    let rebuilt := { instrument with graph := instrument.graph.compact }
    (ofInstrument instrument).toInstrument = .ok rebuilt ∧
      rebuilt.compile? = instrument.compile? ∧
      ofInstrument rebuilt = ofInstrument instrument := by
  intro rebuilt
  have renumbered := Graph.compact_eq_renumber storable.numbered storable.wellPatched
  have restored :
      rebuild InstrumentUnit.registry InstrumentUnit.withSample
          (ofInstrument instrument).nodes (ofInstrument instrument).connections =
        .ok instrument.graph.compact :=
    storable.rebuild_capture representable
  obtain ⟨nodes, connections⟩ := storable.capture_compact
  refine ⟨?_, ?_, ?_⟩
  · rw [toInstrument, restored]
    rfl
  · simp only [rebuilt, renumbered]
    exact instrument.compile?_renumber instrument.graph.numbering_injective _
  · simp only [rebuilt, ofInstrument, GraphFile.mk.injEq, true_and]
    exact ⟨nodes, connections⟩

theorem rebuilt_ofSequence
    (name : String)
    {sequence : Sequence}
    (storable : sequence.graph.Storable)
    (representable : sequence.graph.modules.length ≤ UInt64.size) :
    let rebuilt := { sequence with graph := sequence.graph.compact }
    (ofSequence name sequence).toSequence = .ok rebuilt ∧
      rebuilt.compile = sequence.compile ∧
      ofSequence name rebuilt = ofSequence name sequence := by
  intro rebuilt
  have renumbered := Graph.compact_eq_renumber storable.numbered storable.wellPatched
  have restored :
      rebuild SequenceUnit.registry (fun _ unit => unit)
          (ofSequence name sequence).nodes (ofSequence name sequence).connections =
        .ok sequence.graph.compact :=
    storable.rebuild_capture representable
  obtain ⟨nodes, connections⟩ := storable.capture_compact
  refine ⟨?_, ?_, ?_⟩
  · rw [toSequence, restored]
    rfl
  · simp only [rebuilt, renumbered]
    exact sequence.compile_renumber sequence.graph.numbering_injective _
  · simp only [rebuilt, ofSequence, GraphFile.mk.injEq, true_and]
    exact ⟨nodes, connections⟩

/--
The file of a reachable instrument or sequence loses nothing but the gaps in its
numbers.  Positions are written as words of 64 bits, which count the modules of
any list that is held in memory.
-/
theorem rebuilds_captured :
    (∀ instrument : Instrument,
        instrument.Reachable →
          instrument.graph.modules.length ≤ UInt64.size →
            let rebuilt := { instrument with graph := instrument.graph.compact }
            (ofInstrument instrument).toInstrument = .ok rebuilt ∧
              rebuilt.compile? = instrument.compile? ∧
              ofInstrument rebuilt = ofInstrument instrument) ∧
      ∀ (name : String) (sequence : Sequence),
        sequence.Reachable →
          sequence.graph.modules.length ≤ UInt64.size →
            let rebuilt := { sequence with graph := sequence.graph.compact }
            (ofSequence name sequence).toSequence = .ok rebuilt ∧
              rebuilt.compile = sequence.compile ∧
              ofSequence name rebuilt = ofSequence name sequence := by
  constructor
  · intro instrument reachable representable
    exact rebuilt_ofInstrument reachable.storable representable
  · intro name sequence reachable representable
    exact rebuilt_ofSequence name reachable.storable representable

/-- A sound source that is removed again, a filter that feeds itself, and two outputs. -/
def gappedSound : List (Operation InstrumentUnit) :=
  [.add (.ofWaveform .sine) .origin,
    .add (.wav ⟨"kick.wav", true, 220⟩ Generator.dials) ⟨120, 80⟩,
    .add (.ofMode .lowPass) .origin,
    .add .output .origin,
    .remove 2,
    .setDial 4 "cutoff" .notANumber,
    .connect ⟨4, "IN"⟩ ⟨4, "OUT"⟩,
    .connect ⟨3, "OUT"⟩ ⟨4, "IN"⟩,
    .connect ⟨4, "OUT"⟩ ⟨1, "IN"⟩,
    .connect ⟨4, "OUT"⟩ ⟨5, "IN"⟩]

/-- A pulse that is removed again, and another one with a note. -/
def gappedBeat : List (Operation SequenceUnit) :=
  [.add (.pulse Pulse.dials) .origin,
    .add (.pulse Pulse.dials) .origin,
    .add (.playNote PlayNote.dials) .origin,
    .remove 1,
    .setDial 2 "every" 3,
    .connect ⟨0, "CLOCK"⟩ ⟨2, "CLOCK"⟩,
    .connect ⟨2, "TRIG"⟩ ⟨3, "TRIG"⟩]

theorem drawn_gapped :
    (∀ operation ∈ gappedSound, operation.Drawn) ∧ ∀ operation ∈ gappedBeat, operation.Drawn :=
  ⟨Operation.drawn_of_isPlain (by decide +kernel), Operation.drawn_of_isPlain (by decide +kernel)⟩

/-- Gaps are closed, and the rest comes back, a cycle and a dial without a number included. -/
theorem rebuilds_captured_gapped :
    let instrument : Instrument := ⟨some "pad", some 3, Instrument.new.graph.run gappedSound⟩
    let sequence : Sequence := ⟨5, (Sequence.new 5).graph.run gappedBeat⟩
    (instrument.graph.modules.map Module.id = [0, 1, 3, 4, 5] ∧
        instrument.graph.patches.length = 4 ∧
        (ofInstrument instrument).toInstrument =
          .ok { instrument with graph := instrument.graph.compact }) ∧
      sequence.graph.modules.map Module.id = [0, 2, 3] ∧
        sequence.graph.patches.length = 2 ∧
        (ofSequence "groove" sequence).toSequence =
          .ok { sequence with graph := sequence.graph.compact } := by
  have soundRebuilt :=
    rebuilds_captured.1 _
      (Instrument.reachable_run drawn_gapped.1 (some "pad") (some 3)) (by decide +kernel)
  have beatRebuilt :=
    rebuilds_captured.2 "groove" _ (Sequence.reachable_run drawn_gapped.2 5) (by decide +kernel)
  refine ⟨⟨?_, ?_, soundRebuilt.1⟩, ?_, ?_, beatRebuilt.1⟩ <;> decide +kernel

end GraphFile

end SynthGraph
