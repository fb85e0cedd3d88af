import SynthGraph.Proofs.Graph.Precedence
import SynthGraph.Proofs.Instrument.Grammar
import SynthGraph.Proofs.Instrument.Shape

namespace SynthGraph

/-!
# The parts of a compiled instrument

The output of an instrument feeds nothing, so it is compiled after all modules
that are patched into it, and each of these sends audio, hence a document
(`Instrument.emissions_eq_append`).  Whatever cycles cut off further back, an
instrument compiles to as many documents as there are patches into its first
output (`Instrument.compilesInParts_of_reachable`).
-/

/-- The document that an emission was made of. -/
theorem Emission.document?_ofDocument?
    (content? : Option Document) :
    (Emission.ofDocument? content?).document? = content? := by
  cases content? <;> rfl

/-- Where all modules emitted documents, these are what is read of their emissions. -/
theorem Emissions.documents_of_map_get?
    {emissions : Emissions}
    {ids : List ModuleId}
    {documents : List Document}
    (emitted : ids.map emissions.get? = documents.map fun document => some (.document document)) :
    (ids.filterMap emissions.get?).filterMap Emission.document? = documents := by
  have emittedAll : ids.filterMap emissions.get? = documents.map .document := by
    rw [← Function.id_comp emissions.get?, ← List.filterMap_map, emitted, List.filterMap_map,
      ← List.filterMap_eq_map]
    rfl
  rw [emittedAll, List.filterMap_map]
  exact List.filterMap_some

namespace Graph

variable
  {graph : Graph InstrumentUnit}
  (wellPatched : graph.WellPatched)
  {output : ModuleId}
  (found : graph.unit? output = some .output)

include wellPatched found

/-- An output feeds nothing. -/
theorem source_ne_output
    {patch : Patch}
    (member : patch ∈ graph.patches) :
    patch.source.module ≠ output := by
  intro isSource
  rw [← isSource] at found
  have isOutput := (wellPatched.source_output patch member).mem_sockets found
  simp [UnitLike.sockets, InstrumentUnit.sockets, Socket.input] at isOutput

/-- What is compiled of a module that is patched into an output is a document. -/
theorem document_of_mem_producersInto
    {producer : ModuleId}
    (isProducer : producer ∈ graph.producersInto ⟨output, "IN"⟩)
    {sinks : List ModuleId}
    {emission : Emission}
    (compiled : (producer, emission) ∈ graph.reduce () sinks) :
    ∃ content, emission = .document content := by
  obtain ⟨patch, member, isTarget, rfl⟩ := mem_producersInto.mp isProducer
  obtain ⟨_, _, carries⟩ := carries_of_mem_reduce wellPatched member compiled
  have isAudio : patch.signal = .audio :=
    ((wellPatched.source_output patch member).unique
      (wellPatched.source_of_input ⟨_, found, rfl⟩ member isTarget)).2
  rw [isAudio] at carries
  cases carries with
  | audio content =>
      exact ⟨content, rfl⟩

end Graph

namespace Instrument

open SynthGraph.Graph

/-- The modules that are patched into an output, with the documents they emit. -/
structure Parts
    (instrument : Instrument)
    (output : ModuleId)
    (producers : List ModuleId)
    (documents : List Document) :
    Prop where
  /-- Every patch that ends at the output brings one module, and no two bring the same. -/
  producers_perm :
    producers.Perm ((instrument.graph.patchesAt ⟨output, "IN"⟩).map (·.source.module))
  producers_nodup : producers.Nodup
  /-- The modules come in order of their discovery. -/
  increasing :
    ∃ ranks : List Nat,
      producers.map (instrument.graph.schedule [output]).rank? = ranks.map some ∧
        ranks.Pairwise (· < ·)
  /-- Each of them emits a document, whatever was cut off behind it. -/
  emitted :
    producers.map (instrument.emissions output).get? =
      documents.map fun document => some (.document document)

/-- There are as many documents as patches. -/
theorem Parts.length_documents
    {instrument : Instrument}
    {output : ModuleId}
    {producers : List ModuleId}
    {documents : List Document}
    (parts : instrument.Parts output producers documents) :
    documents.length = (instrument.graph.patchesAt ⟨output, "IN"⟩).length := by
  have sameLength := congrArg List.length parts.emitted
  rw [List.length_map, List.length_map] at sameLength
  rw [← sameLength, parts.producers_perm.length_eq, List.length_map]

/-- An instrument compiles to what its first output emits. -/
theorem compile?_eq
    {instrument : Instrument}
    {output : ModuleId}
    (isOutput : instrument.graph.findKind? InstrumentUnit.outputKind = some output)
    {emission : Emission}
    (emitted : (instrument.emissions output).get? output = some emission) :
    instrument.compile? = emission.document?.map instrument.label := by
  simp only [compile?, isOutput, emitted, Option.bind_eq_bind, Option.bind_some]
  cases emission.document? <;> rfl

section Output

variable
  {instrument : Instrument}
  (storable : instrument.graph.Storable)
  {output : ModuleId}
  (isOutput : instrument.graph.findKind? InstrumentUnit.outputKind = some output)

include storable isOutput

theorem unit?_of_isOutput : instrument.graph.unit? output = some .output := by
  obtain ⟨unit, found, isKind⟩ := unit?_of_findKind? storable.numbered isOutput
  rwa [InstrumentUnit.eq_output_of_kind isKind] at found

/-- The output is compiled last, after all modules that are patched into it. -/
theorem emissions_eq_append :
    ∃ before emission,
      instrument.emissions output = before ++ [(output, emission)] ∧
        ∀ producer ∈ instrument.graph.producersInto ⟨output, "IN"⟩,
          producer ∈ before.map Prod.fst := by
  have isThere := live_of_findKind? isOutput
  have only :
      ∀ id, (id ∈ [output] ∧ (instrument.graph.module? id).isSome) ↔ id = output := by
    intro id
    rw [List.mem_singleton]
    exact ⟨And.left, fun isSame => ⟨isSame, isSame ▸ isThere⟩⟩
  have order := map_fst_reduce storable.wellPatched () [output]
  have isLast := getLast?_emission only
  rw [← order] at isLast
  obtain ⟨ids, splits⟩ := List.getLast?_eq_some_iff.mp isLast
  obtain ⟨before, last, isSplit, isBefore, isEnd⟩ := List.map_eq_append_iff.mp splits
  obtain ⟨step, rfl, isStep⟩ := List.map_eq_singleton_iff.mp isEnd
  refine ⟨before, step.2, isSplit.trans (by rw [← isStep]), ?_⟩
  intro producer isProducer
  obtain ⟨patch, member, _, isSource⟩ := mem_producersInto.mp isProducer
  have behind : instrument.graph.Behind [output] output :=
    behind_singleton_iff.mpr ⟨isThere, .refl⟩
  have isEmitted : producer ∈ (instrument.graph.schedule [output]).emission :=
    mem_emission.mpr (behind.of_feeds (feeds_of_mem_producersInto isProducer))
  rw [← order, splits, List.mem_append, List.mem_singleton] at isEmitted
  rw [isBefore]
  refine isEmitted.resolve_right fun isSame => ?_
  exact source_ne_output storable.wellPatched (unit?_of_isOutput storable isOutput) member
    (isSource.trans isSame)

/-- The modules patched into the output emit documents before the output is compiled. -/
theorem exists_documents
    {before : Emissions}
    {emission : Emission}
    (splits : instrument.emissions output = before ++ [(output, emission)])
    {producers : List ModuleId}
    (areProducers :
      ∀ producer ∈ producers,
        producer ∈ instrument.graph.producersInto ⟨output, "IN"⟩ ∧
          producer ∈ before.map Prod.fst) :
    ∃ documents : List Document,
      producers.map before.get? = documents.map fun document => some (.document document) := by
  have found := unit?_of_isOutput storable isOutput
  have eachEmits :
      ∀ producer ∈ producers, ∃ content, before.get? producer = some (.document content) := by
    intro producer member
    obtain ⟨isProducer, isBefore⟩ := areProducers producer member
    obtain ⟨sent, isSent, isStep⟩ := Emissions.get?_of_mem isBefore
    have compiled : (producer, sent) ∈ instrument.emissions output := by
      rw [splits]
      exact List.mem_append_left _ isStep
    obtain ⟨content, rfl⟩ :=
      document_of_mem_producersInto storable.wellPatched found isProducer compiled
    exact ⟨content, isSent⟩
  have : Nonempty Document := ⟨.null⟩
  choose! content isContent using eachEmits
  refine ⟨producers.map content, ?_⟩
  rw [List.map_map]
  exact List.map_congr_left isContent

/-- An instrument resolves the documents of the modules patched into its first output. -/
theorem exists_parts :
    ∃ producers documents,
      instrument.Parts output producers documents ∧
        instrument.compile? = (Document.resolve? documents).map instrument.label := by
  have wellPatched := storable.wellPatched
  have found := unit?_of_isOutput storable isOutput
  have isInput : Socket.input "IN" .audio ∈ UnitLike.inputs InstrumentUnit.output :=
    List.mem_cons_self
  obtain ⟨before, emission, splits, allBefore⟩ := emissions_eq_append storable isOutput
  obtain ⟨behind, unit, sameFound, isCompiled⟩ := reduce_step splits
  obtain rfl := Option.some.inj (found.symm.trans sameFound)
  have isDiscovered : output ∈ instrument.graph.discover [output] := mem_discover.mpr behind
  obtain ⟨producers, isProducers⟩ :
      ∃ producers,
        (instrument.graph.discover [output]).filter
          (· ∈ instrument.graph.producersInto ⟨output, "IN"⟩) = producers :=
    ⟨_, rfl⟩
  have mem_producers (producer : ModuleId) :
      producer ∈ producers ↔ producer ∈ instrument.graph.producersInto ⟨output, "IN"⟩ := by
    rw [← isProducers]
    exact mem_discovered_producers isDiscovered
  have producersNodup : producers.Nodup := by
    rw [← isProducers]
    exact (nodup_discover instrument.graph [output]).filter _
  have arriving := get_connections_of_step splits wellPatched found isInput
  rw [show (Socket.input "IN" .audio).name = "IN" from rfl, isProducers] at arriving
  obtain ⟨documents, areDocuments⟩ :=
    exists_documents storable isOutput splits fun producer member =>
      have isProducer := (mem_producers producer).mp member
      ⟨isProducer, allBefore producer isProducer⟩
  refine ⟨producers, documents, ⟨?_, producersNodup, ?_, ?_⟩, ?_⟩
  · rw [patchesAt_of_input wellPatched ⟨_, found, rfl⟩]
    exact (List.perm_ext_iff_of_nodup producersNodup
      (nodup_producersInto wellPatched ⟨output, "IN"⟩)).mpr mem_producers
  · rw [← isProducers]
    exact exists_ranks_filter instrument.graph [output] _
  · rw [← areDocuments]
    apply List.map_congr_left
    intro producer member
    exact (get?_before_of_step splits
      (allBefore producer ((mem_producers producer).mp member))).symm
  · have isEmitted : (instrument.emissions output).get? output = some emission :=
      get?_of_step splits wellPatched
    rw [compile?_eq isOutput isEmitted, isCompiled]
    simp only [UnitLike.compile, InstrumentUnit.compile, Emission.document?_ofDocument?,
      Connections.resolve?, Connections.documents, arriving,
      Emissions.documents_of_map_get? areDocuments]

/-- An instrument compiles if something is patched into its first output. -/
theorem exists_compiled
    (fed : instrument.graph.patchesAt ⟨output, "IN"⟩ ≠ []) :
    ∃ document, instrument.compile? = some document := by
  obtain ⟨_, documents, parts, compiled⟩ := exists_parts storable isOutput
  have nonempty : documents ≠ [] := by
    rw [← List.length_pos_iff, parts.length_documents]
    exact List.length_pos_iff.mpr fed
  obtain ⟨whole, isWhole⟩ :=
    Option.ne_none_iff_exists'.mp (mt Document.resolve?_eq_none_iff.mp nonempty)
  exact ⟨_, by rw [compiled, isWhole, Option.map_some]⟩

end Output

/-- When an instrument compiles, and to how many parts. -/
structure CompilesInParts (instrument : Instrument) : Prop where
  /-- Nothing is compiled without an output, or without a patch into the first one. -/
  none_iff :
    instrument.compile? = none ↔
      instrument.graph.findKind? InstrumentUnit.outputKind = none ∨
        ∃ output,
          instrument.graph.findKind? InstrumentUnit.outputKind = some output ∧
            instrument.graph.patchesAt ⟨output, "IN"⟩ = []
  /-- The document is that of the only part, or all parts combined. -/
  parts :
    ∀ output,
      instrument.graph.findKind? InstrumentUnit.outputKind = some output →
        ∃ producers documents,
          instrument.Parts output producers documents ∧
            documents.length = (instrument.graph.patchesAt ⟨output, "IN"⟩).length ∧
            (∀ document,
              documents = [document] → instrument.compile? = some (instrument.label document)) ∧
            (2 ≤ documents.length →
              instrument.compile? =
                some (instrument.label (.object [("combined", .list documents)])))

/-- Every instrument that can come about compiles to all parts patched into its first output. -/
theorem compilesInParts_of_reachable
    {instrument : Instrument}
    (reachable : instrument.Reachable) :
    instrument.CompilesInParts where
  none_iff := by
    cases isOutput : instrument.graph.findKind? InstrumentUnit.outputKind with
    | none =>
        simp [compile?, isOutput]
    | some output =>
        obtain ⟨producers, documents, parts, compiled⟩ := exists_parts reachable.storable isOutput
        have sameLength := parts.length_documents
        rw [compiled, Option.map_eq_none_iff, Document.resolve?_eq_none_iff,
          ← List.length_eq_zero_iff, sameLength, List.length_eq_zero_iff]
        simp
  parts output isOutput := by
    obtain ⟨producers, documents, parts, compiled⟩ := exists_parts reachable.storable isOutput
    refine ⟨producers, documents, parts, parts.length_documents, ?_, ?_⟩
    · rintro document rfl
      exact compiled
    · intro several
      rw [compiled]
      rcases documents with _ | ⟨first, _ | ⟨second, rest⟩⟩
      · cases several
      · exact absurd several (by simp)
      · rfl

/-- An echo that hears itself and a sine whose pitches run in a circle are both heard. -/
theorem compilesInParts_of_reachable_tangled :
    let operations := tangled ++ [.connect ⟨2, "OUT"⟩ ⟨1, "IN"⟩]
    let instrument : Instrument := ⟨some "bell", some 2, Instrument.new.graph.run operations⟩
    instrument.Reachable ∧
      instrument.CompilesInParts ∧
      ∃ documents,
        documents.length = 2 ∧
          instrument.compile? =
            some (instrument.label (.object [("combined", .list documents)])) := by
  intro operations instrument
  have reachable : instrument.Reachable :=
    reachable_run (Operation.drawn_of_isPlain (by decide +kernel)) _ _
  have inParts := compilesInParts_of_reachable reachable
  have isOutput :
      instrument.graph.findKind? InstrumentUnit.outputKind = some outputId := by
    decide +kernel
  have patched : (instrument.graph.patchesAt ⟨outputId, "IN"⟩).length = 2 := by
    decide +kernel
  obtain ⟨_, documents, _, sameLength, _, compiled⟩ := inParts.parts outputId isOutput
  have two : documents.length = 2 := sameLength.trans patched
  exact ⟨reachable, inParts, documents, two, compiled (Nat.le_of_eq two.symm)⟩

end Instrument

end SynthGraph
