import SynthGraph.Proofs.Graph.Steps
import SynthGraph.Proofs.Unit.Signals

namespace SynthGraph.Graph

/-!
# What flows through patches

Both ends of a patch have its signal, so what a module emits is in the form in
which the modules after it read it: a reduction loses nothing on the way, except
that the input of an instrument adds nothing to what it is patched into
(`catalogs_carrySignals`).  This holds on cycles too, where a module may be
compiled before what is patched into it.  A form of documents that every unit
keeps is kept along a whole reduction (`forms_of_step`).
-/

variable {U : Type} [UnitLike U]

/-- Patches carry what their signals promise, and modules read all of it. -/
structure CarriesSignals
    (graph : Graph U)
    (context : UnitLike.Context U)
    (sinks : List ModuleId) :
    Prop where
  /-- What a compiled module emits is what the signals of its patches carry. -/
  carried :
    ∀ patch ∈ graph.patches, ∀ emission,
      (patch.source.module, emission) ∈ graph.reduce context sinks →
        ∃ unit,
          graph.unit? patch.source.module = some unit ∧
            patch.signal.Carries (UnitLike.IsEntry unit) emission
  /-- Finished documents go through no patch. -/
  never_events :
    ∀ patch ∈ graph.patches, ∀ documents,
      (patch.source.module, .events documents) ∉ graph.reduce context sinks
  /--
  A module is compiled from what its patches carry.  At every input all of it is
  read, and nothing else makes a difference to what the module emits.
  -/
  read :
    ∀ before id emission after,
      graph.reduce context sinks = before ++ (id, emission) :: after →
        ∃ unit arriving,
          graph.unit? id = some unit ∧
            arriving = graph.connections (graph.schedule sinks) before id unit ∧
            emission = UnitLike.compile context arriving unit ∧
            (∀ socket ∈ UnitLike.inputs unit,
              socket.signal.Lossless socket.name arriving ∧
                ∀ arrived ∈ arriving.get socket.name,
                  ∃ patch ∈ graph.patches,
                    patch.target = ⟨id, socket.name⟩ ∧
                      patch.signal = socket.signal ∧
                      (patch.source.module, arrived) ∈ before) ∧
            ∀ other,
              (∀ socket ∈ UnitLike.inputs unit,
                socket.signal.ReadsAlike socket.name arriving other) →
                UnitLike.compile context other unit = emission

section Carrying

variable
  {graph : Graph U}
  (wellPatched : graph.WellPatched)

include wellPatched

/-- What arrives at an input was emitted before, and came through a patch of its signal. -/
theorem exists_patch_of_arrives
    {schedule : Schedule}
    {before : Emissions}
    {endpoint : Endpoint}
    {signal : Signal}
    (isInput : graph.HasSocket endpoint .input signal)
    {arrived : Emission}
    (arrives : arrived ∈ graph.arrivals schedule before endpoint) :
    ∃ patch ∈ graph.patches,
      patch.target = endpoint ∧
        patch.signal = signal ∧
        (patch.source.module, arrived) ∈ before := by
  obtain ⟨producer, isProducer, found⟩ := List.mem_filterMap.mp arrives
  rw [byRank, List.mem_mergeSort, producersAt_of_input wellPatched isInput] at isProducer
  obtain ⟨patch, member, rfl, rfl⟩ := mem_producersInto.mp isProducer
  have sameSocket := (wellPatched.target_input patch member).unique isInput
  exact ⟨patch, member, rfl, sameSocket.2, Emissions.mem_of_get? found⟩

variable [SignalUnit U] {context : UnitLike.Context U} {sinks : List ModuleId}

/-- A compiled module emits what the signal of each of its patches carries. -/
theorem carries_of_mem_reduce
    {patch : Patch}
    (member : patch ∈ graph.patches)
    {emission : Emission}
    (compiled : (patch.source.module, emission) ∈ graph.reduce context sinks) :
    ∃ unit,
      graph.unit? patch.source.module = some unit ∧
        patch.signal.Carries (UnitLike.IsEntry unit) emission := by
  obtain ⟨before, after, splits⟩ := List.append_of_mem compiled
  obtain ⟨_, unit, found, rfl⟩ := reduce_step splits
  have isOutput := (wellPatched.source_output patch member).mem_sockets found
  exact ⟨unit, found, SignalUnit.sends context _ unit _ _ isOutput⟩

theorem carriesSignals_of_wellPatched
    (context : UnitLike.Context U)
    (sinks : List ModuleId) :
    graph.CarriesSignals context sinks where
  carried _ member _ compiled := carries_of_mem_reduce wellPatched member compiled
  never_events patch member documents compiled := by
    obtain ⟨_, _, carries⟩ := carries_of_mem_reduce wellPatched member compiled
    exact carries.ne_events documents rfl
  read before id emission after splits := by
    obtain ⟨_, unit, found, isCompiled⟩ := reduce_step splits
    have came (socket : Socket) (isInput : socket ∈ UnitLike.inputs unit) :
        ∀ arrived ∈
            (graph.connections (graph.schedule sinks) before id unit).get socket.name,
          ∃ patch ∈ graph.patches,
            patch.target = ⟨id, socket.name⟩ ∧
              patch.signal = socket.signal ∧
              (patch.source.module, arrived) ∈ before := by
      intro arrived arrives
      rw [connections_eq_ofSockets] at arrives
      rw [Connections.get_ofSockets _ isInput] at arrives
      exact exists_patch_of_arrives wellPatched (hasSocket_of_mem_inputs found isInput) arrives
    refine ⟨unit, _, found, rfl, isCompiled, ?_, ?_⟩
    · intro socket isInput
      refine ⟨Signal.lossless_of_carries ?_, came socket isInput⟩
      intro arrived arrives
      obtain ⟨patch, member, _, sameSignal, emitted⟩ := came socket isInput arrived arrives
      have compiled : (patch.source.module, arrived) ∈ graph.reduce context sinks := by
        rw [splits]
        exact List.mem_append_left _ emitted
      obtain ⟨producer, _, carries⟩ := carries_of_mem_reduce wellPatched member compiled
      rw [sameSignal] at carries
      exact ⟨_, carries⟩
    · intro other alike
      rw [isCompiled]
      exact (SignalUnit.reads context _ other unit alike).symm

/--
If units keep a form of documents from their inputs to their outputs, then only
documents of the form arrive at the modules of a reduction.
-/
theorem forms_of_step
    {form : Signal → Document → Prop}
    (sends :
      ∀ id unit arriving,
        graph.unit? id = some unit →
          (∀ socket ∈ UnitLike.inputs unit,
            ∀ document ∈ arriving.documents socket.name, form socket.signal document) →
          ∀ name signal document,
            .output name signal ∈ UnitLike.sockets unit →
              (UnitLike.compile context arriving unit).document? = some document →
                form signal document)
    {before after : Emissions}
    {id : ModuleId}
    {emission : Emission}
    (splits : graph.reduce context sinks = before ++ (id, emission) :: after) :
    ∃ unit arriving,
      graph.unit? id = some unit ∧
        arriving = graph.connections (graph.schedule sinks) before id unit ∧
        emission = UnitLike.compile context arriving unit ∧
        ∀ socket ∈ UnitLike.inputs unit,
          ∀ document ∈ arriving.documents socket.name, form socket.signal document := by
  obtain ⟨size, isSize⟩ : ∃ size, before.length = size := ⟨_, rfl⟩
  induction size using Nat.strong_induction_on generalizing before after id emission with
  | _ size inductionHypothesis =>
      obtain ⟨unit, arriving, found, isArriving, isCompiled, readAll, _⟩ :=
        (carriesSignals_of_wellPatched wellPatched context sinks).read before id emission after splits
      refine ⟨unit, arriving, found, isArriving, isCompiled, ?_⟩
      intro socket isInput document arrives
      obtain ⟨arrived, isArrived, isDocument⟩ := List.mem_filterMap.mp arrives
      obtain ⟨patch, member, _, sameSignal, emitted⟩ :=
        (readAll socket isInput).2 arrived isArrived
      -- The producer was compiled earlier, so what arrived at it was of the form already.
      obtain ⟨earlier, between, isBefore⟩ := List.append_of_mem emitted
      have splitsEarlier :
          graph.reduce context sinks =
            earlier ++ (patch.source.module, arrived) :: (between ++ (id, emission) :: after) := by
        rw [splits, isBefore]
        simp
      have shorter : earlier.length < size := by
        rw [← isSize, isBefore]
        simp
      obtain ⟨producer, atProducer, producerFound, _, rfl, ofForm⟩ :=
        inductionHypothesis _ shorter splitsEarlier rfl
      have isOutput := (wellPatched.source_output patch member).mem_sockets producerFound
      rw [← sameSignal]
      exact sends _ producer atProducer producerFound ofForm _ _ document isOutput isDocument

end Carrying

/-- In every graph that operations build from either catalog, patches carry their signals. -/
theorem catalogs_carrySignals :
    (∀ (operations : List (Operation InstrumentUnit)) (context : Unit) (sinks : List ModuleId),
        (empty.run operations).CarriesSignals context sinks) ∧
      ∀ (operations : List (Operation SequenceUnit)) (context : UInt8) (sinks : List ModuleId),
        (empty.run operations).CarriesSignals context sinks :=
  ⟨fun operations context sinks =>
      carriesSignals_of_wellPatched (wellPatched_run operations) context sinks,
    fun operations context sinks =>
      carriesSignals_of_wellPatched (wellPatched_run operations) context sinks⟩

end SynthGraph.Graph
