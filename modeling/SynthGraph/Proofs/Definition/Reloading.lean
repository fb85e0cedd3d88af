import SynthGraph.Proofs.Definition.Emitted
import SynthGraph.Proofs.GraphFile.RoundTrip

namespace SynthGraph

/-!
# Reloading compiled instruments

Compiling an instrument unfolds its graph into a document, and loading the
document builds a tree of it.  When no cycle, no unfed filter and no number that
is not finite stands behind the output, every module that sends audio means an
emitted document (`Graph.Means.emitted`), so the document of the instrument is
read back.  Compiled again it has lost its pitches and nothing else
(`Instrument.compile?_reloaded`).
-/

/-- Whether the numbers of a unit are finite. -/
structure InstrumentUnit.HasFiniteNumbers (unit : InstrumentUnit) : Prop where
  dials : unit.dials.AreFinite
  basePitch : ∀ sample ∈ unit.sample?, sample.basePitch.finite?.isSome

instance (unit : InstrumentUnit) : Decidable unit.HasFiniteNumbers :=
  decidable_of_iff
    (unit.dials.AreFinite ∧ ∀ sample ∈ unit.sample?, sample.basePitch.finite?.isSome)
    ⟨fun ⟨dials, basePitch⟩ => ⟨dials, basePitch⟩, fun ⟨dials, basePitch⟩ => ⟨dials, basePitch⟩⟩

theorem InstrumentUnit.eq_output_of_kind
    {unit : InstrumentUnit}
    (isKind : UnitLike.kind unit = outputKind) :
    unit = .output := by
  cases unit with
  | output =>
      rfl
  | generator waveform _ =>
      cases waveform <;> simp [UnitLike.kind, kind, Waveform.kind, outputKind] at isKind
  | filter mode _ =>
      cases mode <;> simp [UnitLike.kind, kind, FilterMode.kind, outputKind] at isKind
  | input | wav | transpose | panning =>
      simp [UnitLike.kind, kind, inputKind, Sample.kind, Transpose.kind, Panning.kind, outputKind]
        at isKind

namespace Graph

variable {graph : Graph InstrumentUnit} {output : ModuleId}

/-- What a document can tell of the graph behind an output. -/
structure Reloadable (graph : Graph InstrumentUnit) (output : ModuleId) : Prop where
  acyclic : graph.AcyclicBehind [output]
  filters_fed :
    ∀ id mode dials,
      graph.Behind [output] id →
        graph.unit? id = some (.filter mode dials) →
          ∃ patch ∈ graph.patches, patch.target = ⟨id, "IN"⟩
  finite :
    ∀ id unit,
      graph.Behind [output] id → graph.unit? id = some unit → unit.HasFiniteNumbers

section Arriving

variable
  {meaning : ModuleId → Emission}
  {id : ModuleId}
  {unit : InstrumentUnit}
  {name : String}
  {signal : Signal}
  (isInput : UnitLike.socket? unit name = some (.input name signal))

include isInput

/-- The documents that arrive at an input are those that its producers mean. -/
theorem mem_documents_iff
    {document : Document} :
    document ∈ (graph.gathered (graph.discover [output]) meaning id unit).documents name ↔
      ∃ producer ∈ graph.producersInto ⟨id, name⟩,
        graph.Behind [output] producer ∧ (meaning producer).document? = some document := by
  have isListed : .input name signal ∈ UnitLike.inputs unit :=
    List.mem_filter.mpr ⟨(UnitLike.socket?_some isInput).1, rfl⟩
  have arriving :
      (graph.gathered (graph.discover [output]) meaning id unit).get name =
        ((graph.discover [output]).filter (· ∈ graph.producersInto ⟨id, name⟩)).map meaning :=
    get_gathered graph (graph.discover [output]) meaning id isListed
  rw [Connections.documents, arriving]
  simp only [List.mem_filterMap, List.mem_map, List.mem_filter, mem_discover, decide_eq_true_eq]
  constructor
  · rintro ⟨_, ⟨producer, ⟨behind, isProducer⟩, rfl⟩, isDocument⟩
    exact ⟨producer, isProducer, behind, isDocument⟩
  · rintro ⟨producer, isProducer, behind, isDocument⟩
    exact ⟨_, ⟨producer, ⟨behind, isProducer⟩, rfl⟩, isDocument⟩

variable
  {holds : Document → Prop}
  (each :
    ∀ producer ∈ graph.producersInto ⟨id, name⟩,
      ∃ document, meaning producer = .document document ∧ holds document)

include each

/-- What holds of the documents that producers mean holds of those that arrive. -/
theorem holds_of_mem_documents
    {document : Document}
    (member :
      document ∈ (graph.gathered (graph.discover [output]) meaning id unit).documents name) :
    holds document := by
  obtain ⟨producer, isProducer, _, isDocument⟩ := (mem_documents_iff isInput).mp member
  obtain ⟨other, isMeaning, isHeld⟩ := each producer isProducer
  rw [isMeaning] at isDocument
  cases isDocument
  exact isHeld

/-- Nothing arrives only where nothing is patched. -/
theorem documents_eq_nil_iff
    (behind : graph.Behind [output] id) :
    (graph.gathered (graph.discover [output]) meaning id unit).documents name = [] ↔
      ∀ patch ∈ graph.patches, patch.target ≠ ⟨id, name⟩ := by
  rw [List.eq_nil_iff_forall_not_mem]
  constructor
  · intro nothing patch member isTarget
    have isProducer := mem_producersInto.mpr ⟨patch, member, isTarget, rfl⟩
    obtain ⟨document, isMeaning, _⟩ := each _ isProducer
    exact nothing document ((mem_documents_iff isInput).mpr
      ⟨_, isProducer, behind.of_feeds (feeds_of_mem_producersInto isProducer),
        congrArg Emission.document? isMeaning⟩)
  · intro unfed document member
    obtain ⟨producer, isProducer, _⟩ := (mem_documents_iff isInput).mp member
    obtain ⟨patch, isPatch, isTarget, _⟩ := mem_producersInto.mp isProducer
    exact unfed patch isPatch isTarget

end Arriving

/-- A module behind the output that sends audio means an emitted document. -/
theorem Means.emitted
    (storable : graph.Storable)
    (reloadable : graph.Reloadable output)
    {id : ModuleId}
    {emission : Emission}
    (means : graph.Means () (graph.discover [output]) id emission)
    (behind : graph.Behind [output] id)
    {socket : String}
    (sendsAudio : graph.HasSocket ⟨id, socket⟩ .output .audio) :
    ∃ document, emission = .document document ∧ document.Emitted := by
  induction means generalizing socket with
  | @unit id unit meaning found _ inductionHypothesis =>
      have tuned := storable.unit_tuned found
      have finite := reloadable.finite id unit behind found
      have isOutput := sendsAudio.mem_sockets found
      cases unit with
      | generator waveform dials =>
          exact ⟨_, rfl, .wave _ tuned finite.dials⟩
      | wav sample dials =>
          exact ⟨_, rfl, .sample tuned finite.dials (finite.basePitch sample rfl)⟩
      | filter mode dials =>
          have each :
              ∀ producer ∈ graph.producersInto ⟨id, "IN"⟩,
                ∃ document, meaning producer = .document document ∧ document.Emitted := by
            intro producer isProducer
            have feeds := feeds_of_mem_producersInto isProducer
            obtain ⟨patch, member, isTarget, rfl⟩ := mem_producersInto.mp isProducer
            have source := storable.wellPatched.source_of_input ⟨_, found, rfl⟩ member isTarget
            exact inductionHypothesis _ feeds (behind.of_feeds feeds) source
          obtain ⟨patch, member, isTarget⟩ := reloadable.filters_fed id mode dials behind found
          exact ⟨_, rfl, .filter tuned finite.dials
            (fun nothing => (documents_eq_nil_iff rfl each behind).mp nothing patch member isTarget)
            fun document member => holds_of_mem_documents rfl each member⟩
      | input | output | transpose | panning =>
          -- None of these sends audio.
          simp [UnitLike.sockets, InstrumentUnit.sockets, Transpose.sockets, Panning.sockets,
            Socket.input, Socket.output] at isOutput

/-- The first module of a kind is there, with a unit of the kind. -/
theorem unit?_of_findKind?
    {U : Type}
    [UnitLike U]
    {graph : Graph U}
    (numbered : graph.Numbered)
    {kind : String}
    {id : ModuleId}
    (isFirst : graph.findKind? kind = some id) :
    ∃ unit, graph.unit? id = some unit ∧ UnitLike.kind unit = kind := by
  obtain ⟨module, member, rfl⟩ := List.mem_map.mp (List.mem_of_head? isFirst)
  obtain ⟨isThere, isKind⟩ := List.mem_filter.mp member
  exact ⟨module.unit, numbered.unit?_of_mem isThere, by simpa using isKind⟩

end Graph

namespace Instrument

open Document

variable {instrument : Instrument} {output : ModuleId}

/-- Without cycles an instrument compiles to what its modules mean at the output, in one. -/
theorem exists_meaning
    (storable : instrument.graph.Storable)
    (isOutput : instrument.graph.findKind? InstrumentUnit.outputKind = some output)
    (acyclic : instrument.graph.AcyclicBehind [output]) :
    instrument.graph.unit? output = some .output ∧
      instrument.graph.Behind [output] output ∧
      ∃ meaning,
        (∀ producer,
          instrument.graph.Feeds producer output →
            instrument.graph.Means () (instrument.graph.discover [output]) producer
              (meaning producer)) ∧
          instrument.compile? =
            (resolve?
              ((instrument.graph.gathered (instrument.graph.discover [output]) meaning output
                InstrumentUnit.output).documents "IN")).map instrument.label := by
  obtain ⟨unit, found, isKind⟩ := Graph.unit?_of_findKind? storable.numbered isOutput
  obtain rfl := InstrumentUnit.eq_output_of_kind isKind
  have reduces := Graph.reducesToMeaning_of_acyclic storable.wellPatched () acyclic
  have isThere : (instrument.graph.module? output).isSome := by
    obtain ⟨module, isModule, _⟩ := Option.map_eq_some_iff.mp found
    exact Option.isSome_iff_exists.mpr ⟨module, isModule⟩
  have behind : instrument.graph.Behind [output] output :=
    Graph.behind_singleton_iff.mpr ⟨isThere, .refl⟩
  refine ⟨found, behind, ?_⟩
  obtain ⟨emission, isEmission, means⟩ := reduces.exists_get? behind
  cases means with
  | @unit _ unit meaning sameFound producersMean =>
      obtain rfl := Option.some.inj (found.symm.trans sameFound)
      refine ⟨meaning, producersMean, ?_⟩
      simp only [compile?, isOutput, emissions, isEmission, Option.bind_eq_bind, Option.bind_some,
        UnitLike.compile, InstrumentUnit.compile, Connections.resolve?]
      generalize resolve? _ = whole
      cases whole <;> rfl

/-- An instrument compiles to the emitted documents that arrive at its output, in one. -/
theorem exists_emitted
    (storable : instrument.graph.Storable)
    (isOutput : instrument.graph.findKind? InstrumentUnit.outputKind = some output)
    (reloadable : instrument.graph.Reloadable output) :
    ∃ documents,
      (∀ document ∈ documents, document.Emitted) ∧
        ((∃ patch ∈ instrument.graph.patches, patch.target = ⟨output, "IN"⟩) → documents ≠ []) ∧
        instrument.compile? = (resolve? documents).map instrument.label := by
  obtain ⟨found, behind, meaning, producersMean, isCompiled⟩ :=
    exists_meaning storable isOutput reloadable.acyclic
  have isInput :
      UnitLike.socket? InstrumentUnit.output "IN" = some (.input "IN" .audio) := rfl
  have each :
      ∀ producer ∈ instrument.graph.producersInto ⟨output, "IN"⟩,
        ∃ document, meaning producer = .document document ∧ document.Emitted := by
    intro producer isProducer
    have feeds := Graph.feeds_of_mem_producersInto isProducer
    obtain ⟨patch, member, isTarget, rfl⟩ := Graph.mem_producersInto.mp isProducer
    have source := storable.wellPatched.source_of_input ⟨_, found, isInput⟩ member isTarget
    exact (producersMean _ feeds).emitted storable reloadable (behind.of_feeds feeds) source
  refine ⟨_, fun document member => Graph.holds_of_mem_documents isInput each member, ?_,
    isCompiled⟩
  rintro ⟨patch, member, isTarget⟩ nothing
  exact (Graph.documents_eq_nil_iff isInput each behind).mp nothing patch member isTarget

/-- An instrument with a patched output compiles to a document. -/
theorem compile?_isSome
    (storable : instrument.graph.Storable)
    (isOutput : instrument.graph.findKind? InstrumentUnit.outputKind = some output)
    (reloadable : instrument.graph.Reloadable output)
    (fed : ∃ patch ∈ instrument.graph.patches, patch.target = ⟨output, "IN"⟩) :
    ∃ document, instrument.compile? = some document := by
  obtain ⟨documents, emitted, notEmpty, compiled⟩ := exists_emitted storable isOutput reloadable
  obtain ⟨whole, resolved, _⟩ :=
    readAs_resolve? (fun document member => (emitted document member).readAs) (notEmpty fed)
  exact ⟨instrument.label whole, by rw [compiled, resolved, Option.map_some]⟩

section Labels

variable {key : String} {value : Document}

/-- The name and the bank slot of an instrument stand beside the sound of its document. -/
theorem tells_label
    (instrument : Instrument)
    (isSound : key ∈ soundKeys)
    (nonNull : value.nonNull? = some value) :
    (instrument.label (.object [(key, value)])).Tells key value := by
  have single : (Document.object [(key, value)]).Tells key value := tells_single nonNull
  have noName : "name" ∉ soundKeys := by
    decide
  have noIndex : "index" ∉ soundKeys := by
    decide
  cases isName : instrument.name <;> cases isIndex : instrument.bankIndex <;>
    simp only [label, isName, isIndex]
  · exact single
  · exact single.insert isSound noIndex _
  · exact single.insert isSound noName _
  · exact (single.insert isSound noName _).insert isSound noIndex _

/-- The name and the bank slot are read back from the document of an instrument. -/
theorem read_label
    (instrument : Instrument)
    (isSound : key ∈ soundKeys) :
    ((instrument.label (.object [(key, value)])).field? "name").bind text? = instrument.name ∧
      ((instrument.label (.object [(key, value)])).field? "index").bind uint32? =
        instrument.bankIndex := by
  have notName : key ≠ "name" := by
    rintro rfl
    exact absurd isSound (by decide)
  have notIndex : key ≠ "index" := by
    rintro rfl
    exact absurd isSound (by decide)
  have readIndex (index : UInt32) : (natural index.toNat).uint32? = some index := by
    have small : index.toNat < UInt32.size := index.toNat_lt
    simp [natural, uint32?, natural?, small]
  cases isName : instrument.name <;> cases isIndex : instrument.bankIndex <;>
    simp [label, isName, isIndex, field?, Entries.get?_insert_self, Entries.get?_insert_of_ne,
      Entries.get?, notName, notIndex, text?, readIndex]

end Labels

/-- Compiling, loading and compiling again takes away the pitches of generated waves only. -/
theorem compile?_reloaded
    (reachable : instrument.Reachable)
    (isOutput : instrument.graph.findKind? InstrumentUnit.outputKind = some output)
    (reloadable : instrument.graph.Reloadable output)
    {document : Document}
    (compiled : instrument.compile? = some document) :
    ∃ loaded,
      Instrument.ofDocument document = .ok loaded ∧
        loaded.compile? = some document.unpitched := by
  obtain ⟨documents, emitted, _, isCompiled⟩ :=
    exists_emitted reachable.storable isOutput reloadable
  obtain ⟨whole, resolved, rfl⟩ := Option.map_eq_some_iff.mp (isCompiled.symm.trans compiled)
  have nonempty : documents ≠ [] := by
    rintro rfl
    cases resolved
  obtain ⟨same, isWhole, readAs⟩ :=
    readAs_resolve? (fun document member => (emitted document member).readAs) nonempty
  rw [resolved, Option.some.injEq] at isWhole
  subst isWhole
  obtain ⟨key, value, rfl, isSound, nonNull, reads⟩ := readAs
  obtain ⟨definition, accepted, sounds⟩ := reads _ (instrument.tells_label isSound nonNull)
  obtain ⟨sameName, sameIndex⟩ := instrument.read_label isSound
  have sound := (Definition.rewrites_ofDocument _ accepted).sound
  refine ⟨_, ofDocument_eq accepted, ?_⟩
  rw [Definition.compile?_loaded sound, sounds, resolve?_unpitched, resolved, sameName, sameIndex,
    unpitched_label]
  rfl

/-- A transposed saw, heard through a filter together with a sample, and without the filter. -/
def sharedSound : List (Operation InstrumentUnit) :=
  [.add (.ofWaveform .saw) .origin,
    .add (.ofMode .lowPass) .origin,
    .add (.wav ⟨"kick.wav", true, 220⟩ Generator.dials) .origin,
    .add (.transpose Transpose.dials) .origin,
    .setDial 2 "gain" 2,
    .setDial 3 "cutoff" 800.5,
    .connect ⟨0, "FREQ"⟩ ⟨5, "FREQ IN"⟩,
    .connect ⟨5, "FREQ"⟩ ⟨2, "FREQ"⟩,
    .connect ⟨2, "OUT"⟩ ⟨3, "IN"⟩,
    .connect ⟨4, "OUT"⟩ ⟨3, "IN"⟩,
    .connect ⟨2, "OUT"⟩ ⟨1, "IN"⟩,
    .connect ⟨3, "OUT"⟩ ⟨1, "IN"⟩]

/-- The shared saw is unfolded into two, and both are read back. -/
theorem compile?_reloaded_shared :
    let instrument : Instrument := ⟨some "lead", some 3, Instrument.new.graph.run sharedSound⟩
    instrument.graph.patches.length = 6 ∧
      ∃ document loaded,
        instrument.compile? = some document ∧
          Instrument.ofDocument document = .ok loaded ∧
          loaded.compile? = some document.unpitched := by
  intro instrument
  have acyclic : instrument.graph.AcyclicBehind [outputId] := by
    let height : ModuleId → Nat := fun id => [0, 4, 2, 3, 2, 1].getD id 0
    exact Graph.acyclicBehind_of_wellFounded (Graph.wellFounded_feeds height (by decide +kernel)) _
  have modules :
      ∀ module ∈ instrument.graph.modules,
        module.unit.HasFiniteNumbers ∧
          (FilterMode.ofKind? module.unit.kind = none ∨
            ∃ patch ∈ instrument.graph.patches, patch.target = ⟨module.id, "IN"⟩) := by
    decide +kernel
  have reloadable : instrument.graph.Reloadable outputId := by
    refine ⟨acyclic, ?_, ?_⟩
    · intro id mode dials _ found
      obtain ⟨module, isModule, isFilter⟩ := Option.map_eq_some_iff.mp found
      obtain ⟨member, rfl⟩ := Graph.module?_some isModule
      rcases (modules module member).2 with notFilter | fed
      · rw [isFilter] at notFilter
        cases mode <;> cases notFilter
      · exact fed
    · intro id unit _ found
      obtain ⟨module, isModule, rfl⟩ := Option.map_eq_some_iff.mp found
      exact (modules module (Graph.module?_some isModule).1).1
  have reachable : instrument.Reachable :=
    reachable_run (Operation.drawn_of_isPlain (by decide +kernel)) _ _
  have isOutput : instrument.graph.findKind? InstrumentUnit.outputKind = some outputId := by
    decide +kernel
  obtain ⟨document, compiled⟩ :=
    compile?_isSome reachable.storable isOutput reloadable (by decide +kernel)
  obtain ⟨loaded, isLoaded, recompiled⟩ :=
    compile?_reloaded reachable isOutput reloadable compiled
  exact ⟨by decide +kernel, document, loaded, compiled, isLoaded, recompiled⟩

end Instrument

end SynthGraph
