import SynthGraph.Proofs.Definition.Bare
import SynthGraph.Proofs.Definition.Reloading
import SynthGraph.Proofs.Graph.Audio
import SynthGraph.Proofs.Instrument.Parts

namespace SynthGraph

/-!
# Which compiled instruments are read

A filter into which nothing is patched compiles to a body that names its effect
and no sound, and such a body is refused when it is read.  Nothing else in the
document of an instrument offends, so without cycles a compiled instrument is
read exactly if all filters behind its output are fed
(`Instrument.readsBack_of_reachable`).
-/

namespace Graph

/-- A filter that leads to the module is not fed, and this is the body it compiles to. -/
def LacksSound (graph : Graph InstrumentUnit) (id : ModuleId) (body : Document) : Prop :=
  ∃ filter mode dials,
    Relation.ReflTransGen graph.Feeds filter id ∧
      graph.unit? filter = some (.filter mode dials) ∧
      (∀ patch ∈ graph.patches, patch.target ≠ ⟨filter, "IN"⟩) ∧
      body = Document.bareBody mode dials

section WellPatched

variable
  {graph : Graph InstrumentUnit}
  (wellPatched : graph.WellPatched)
  {id : ModuleId}
  {unit : InstrumentUnit}
  (found : graph.unit? id = some unit)

include wellPatched found

/-- No filter stands behind a sound source. -/
theorem not_lacksSound_of_deaf
    (deaf : unit.hears = false)
    (body : Document) :
    ¬ graph.LacksSound id body := by
  rintro ⟨filter, mode, dials, path, filterFound, _, _⟩
  have hears := hears_of_path wellPatched filterFound found path rfl
  rw [deaf] at hears
  cases hears

/-- All that feeds a unit that hears is patched into its input. -/
theorem feeds_iff_of_hears
    (hears : unit.hears)
    (producer : ModuleId) :
    graph.Feeds producer id ↔ producer ∈ graph.producersInto ⟨id, "IN"⟩ := by
  rw [mem_producersInto]
  constructor
  · rintro ⟨patch, member, isSource, rfl⟩
    exact ⟨patch, member, target_of_hears wellPatched member found hears, isSource⟩
  · rintro ⟨patch, member, isTarget, isSource⟩
    exact ⟨patch, member, isSource, congrArg Endpoint.module isTarget⟩

/-- A module that is fed lacks what the modules that feed it lack. -/
theorem lacksSound_iff_of_fed
    (hears : unit.hears)
    (fed : ∃ patch ∈ graph.patches, patch.target = ⟨id, "IN"⟩)
    (body : Document) :
    graph.LacksSound id body ↔
      ∃ producer ∈ graph.producersInto ⟨id, "IN"⟩, graph.LacksSound producer body := by
  constructor
  · rintro ⟨filter, mode, dials, path, filterFound, unfed, isBody⟩
    rcases path.cases_tail with rfl | ⟨producer, earlier, feeds⟩
    · obtain ⟨patch, member, isTarget⟩ := fed
      exact absurd isTarget (unfed patch member)
    · exact ⟨producer, (feeds_iff_of_hears wellPatched found hears producer).mp feeds,
        filter, mode, dials, earlier, filterFound, unfed, isBody⟩
  · rintro ⟨producer, isProducer, filter, mode, dials, path, filterFound, unfed, isBody⟩
    exact ⟨filter, mode, dials, path.tail (feeds_of_mem_producersInto isProducer), filterFound,
      unfed, isBody⟩

/-- A filter that is not fed lacks its own sound only. -/
theorem lacksSound_iff_of_unfed
    {mode : FilterMode}
    {dials : Dials}
    (isFilter : unit = .filter mode dials)
    (unfed : ∀ patch ∈ graph.patches, patch.target ≠ ⟨id, "IN"⟩)
    (body : Document) :
    graph.LacksSound id body ↔ body = Document.bareBody mode dials := by
  subst isFilter
  constructor
  · rintro ⟨filter, filterMode, filterDials, path, filterFound, _, rfl⟩
    rcases path.cases_tail with rfl | ⟨producer, _, feeds⟩
    · cases filterFound.symm.trans found
      rfl
    · have isProducer := (feeds_iff_of_hears wellPatched found rfl producer).mp feeds
      obtain ⟨patch, member, isTarget, _⟩ := mem_producersInto.mp isProducer
      exact absurd isTarget (unfed patch member)
  · rintro rfl
    exact ⟨id, mode, dials, .refl, found, unfed, rfl⟩

end WellPatched

/-- A module emits a sound in which the filters offend that lack theirs. -/
def EmitsSound (graph : Graph InstrumentUnit) (id : ModuleId) (emission : Emission) : Prop :=
  ∃ document,
    emission = .document document ∧
      document.IsSound ∧
      ∀ error,
        error ∈ document.offences ↔
          ∃ body, graph.LacksSound id body ∧ error = .unknownDefinition body

theorem EmitsSound.exists_sound
    {graph : Graph InstrumentUnit}
    {id : ModuleId}
    {emission : Emission}
    (emits : graph.EmitsSound id emission) :
    ∃ document, emission = .document document ∧ document.IsSound := by
  obtain ⟨document, isDocument, isSound, _⟩ := emits
  exact ⟨document, isDocument, isSound⟩

section Arriving

variable
  {graph : Graph InstrumentUnit}
  {output : ModuleId}
  {meaning : ModuleId → Emission}
  {id : ModuleId}
  {unit : InstrumentUnit}
  (isInput : UnitLike.socket? unit "IN" = some (.input "IN" .audio))
  (each :
    ∀ producer ∈ graph.producersInto ⟨id, "IN"⟩, graph.EmitsSound producer (meaning producer))

include isInput each

/-- What offends in the sounds that arrive is what their producers lack. -/
theorem mem_offences_of_arriving
    (behind : graph.Behind [output] id)
    (error : DefinitionError) :
    error ∈
        ((graph.gathered (graph.discover [output]) meaning id unit).documents "IN").flatMap
          Document.offences ↔
      ∃ body,
        (∃ producer ∈ graph.producersInto ⟨id, "IN"⟩, graph.LacksSound producer body) ∧
          error = .unknownDefinition body := by
  rw [List.mem_flatMap]
  constructor
  · rintro ⟨document, member, offends⟩
    obtain ⟨producer, isProducer, _, isDocument⟩ := (mem_documents_iff isInput).mp member
    obtain ⟨other, isMeaning, _, offending⟩ := each producer isProducer
    rw [isMeaning] at isDocument
    cases isDocument
    obtain ⟨body, lacks, isError⟩ := (offending error).mp offends
    exact ⟨body, ⟨producer, isProducer, lacks⟩, isError⟩
  · rintro ⟨body, ⟨producer, isProducer, lacks⟩, isError⟩
    obtain ⟨document, isMeaning, _, offending⟩ := each producer isProducer
    have arrives :=
      (mem_documents_iff isInput).mpr
        ⟨producer, isProducer, behind.of_feeds (feeds_of_mem_producersInto isProducer),
          congrArg Emission.document? isMeaning⟩
    exact ⟨document, arrives, (offending error).mpr ⟨body, lacks, isError⟩⟩

end Arriving

/-- A filter emits a sound if only sounds are patched into it. -/
theorem emitsSound_filter
    {graph : Graph InstrumentUnit}
    (wellPatched : graph.WellPatched)
    {output id : ModuleId}
    {meaning : ModuleId → Emission}
    {mode : FilterMode}
    {dials : Dials}
    (found : graph.unit? id = some (.filter mode dials))
    (behind : graph.Behind [output] id)
    (each :
      ∀ producer ∈ graph.producersInto ⟨id, "IN"⟩,
        graph.EmitsSound producer (meaning producer)) :
    graph.EmitsSound id
      (.document (Filter.compile mode dials
        (graph.gathered (graph.discover [output]) meaning id (.filter mode dials)))) := by
  have isInput :
      UnitLike.socket? (InstrumentUnit.filter mode dials) "IN" = some (.input "IN" .audio) := rfl
  have sounds := fun producer isProducer => (each producer isProducer).exists_sound
  refine ⟨_, rfl, Document.isSound_keyed (by decide) _, fun error => ?_⟩
  rw [Filter.compile, Connections.resolve?,
    Document.offences_filter mode dials fun _ => holds_of_mem_documents isInput sounds]
  by_cases unfed : ∀ patch ∈ graph.patches, patch.target ≠ ⟨id, "IN"⟩
  · rw [if_pos ((documents_eq_nil_iff isInput sounds behind).mpr unfed)]
    simp [lacksSound_iff_of_unfed wellPatched found rfl unfed]
  · rw [if_neg (mt (documents_eq_nil_iff isInput sounds behind).mp unfed),
      mem_offences_of_arriving isInput each behind]
    push Not at unfed
    simp only [lacksSound_iff_of_fed wellPatched found rfl unfed]

/-- Every module behind the output that sends audio emits a sound. -/
theorem Means.emitsSound
    {graph : Graph InstrumentUnit}
    (wellPatched : graph.WellPatched)
    {output id : ModuleId}
    {emission : Emission}
    (means : graph.Means () (graph.discover [output]) id emission)
    (behind : graph.Behind [output] id)
    {socket : String}
    (sendsAudio : graph.HasSocket ⟨id, socket⟩ .output .audio) :
    graph.EmitsSound id emission := by
  induction means generalizing socket with
  | @unit id unit meaning found _ inductionHypothesis =>
      have ofSource {key : String} (isSource : key ∈ Document.sourceKeys)
          (deaf : unit.hears = false) (body : Document.Fields) :
          graph.EmitsSound id (.document (.keyed key body)) := by
        have areSounds : ∀ key ∈ Document.sourceKeys, key ∈ Document.soundKeys := by
          decide
        refine ⟨_, rfl, Document.isSound_keyed (areSounds key isSource) body, fun error => ?_⟩
        have lacksNone := not_lacksSound_of_deaf wellPatched found deaf
        simp [Document.offences_source isSource, lacksNone]
      have isSent := InstrumentUnit.sent?_of_mem_sockets (sendsAudio.mem_sockets found)
      cases unit with
      | generator waveform dials =>
          exact ofSource (Document.documentKey_mem_sourceKeys waveform) rfl _
      | wav sample dials =>
          exact ofSource (by decide) rfl _
      | filter mode dials =>
          refine emitsSound_filter wellPatched found behind fun producer isProducer => ?_
          have feeds := feeds_of_mem_producersInto isProducer
          obtain ⟨patch, member, isTarget, rfl⟩ := mem_producersInto.mp isProducer
          exact inductionHypothesis _ feeds (behind.of_feeds feeds)
            (wellPatched.source_of_input ⟨_, found, rfl⟩ member isTarget)
      | input | output | transpose | panning =>
          cases isSent

end Graph

namespace Instrument

open Document

/-- In the document of an instrument offend just the filters behind the output that lack a sound. -/
theorem mem_offences_compiled
    {instrument : Instrument}
    (storable : instrument.graph.Storable)
    {output : ModuleId}
    (isOutput : instrument.graph.findKind? InstrumentUnit.outputKind = some output)
    (acyclic : instrument.graph.AcyclicBehind [output])
    {document : Document}
    (compiled : instrument.compile? = some document)
    (error : DefinitionError) :
    error ∈ document.offences ↔
      ∃ body, instrument.graph.LacksSound output body ∧ error = .unknownDefinition body := by
  obtain ⟨found, behind, meaning, producersMean, isCompiled⟩ :=
    exists_meaning storable isOutput acyclic
  have wellPatched := storable.wellPatched
  have isInput :
      UnitLike.socket? InstrumentUnit.output "IN" = some (.input "IN" .audio) := rfl
  have each :
      ∀ producer ∈ instrument.graph.producersInto ⟨output, "IN"⟩,
        instrument.graph.EmitsSound producer (meaning producer) := by
    intro producer isProducer
    have feeds := Graph.feeds_of_mem_producersInto isProducer
    obtain ⟨patch, member, isTarget, rfl⟩ := Graph.mem_producersInto.mp isProducer
    exact (producersMean _ feeds).emitsSound wellPatched (behind.of_feeds feeds)
      (wellPatched.source_of_input ⟨_, found, isInput⟩ member isTarget)
  have sounds := fun producer isProducer => (each producer isProducer).exists_sound
  obtain ⟨whole, resolved, rfl⟩ := Option.map_eq_some_iff.mp (isCompiled.symm.trans compiled)
  have nonempty :
      (instrument.graph.gathered (instrument.graph.discover [output]) meaning output
        InstrumentUnit.output).documents "IN" ≠ [] := by
    intro isEmpty
    rw [isEmpty] at resolved
    cases resolved
  obtain ⟨same, isWhole, ⟨key, value, rfl, isSound, nonNull⟩, offend⟩ :=
    exists_resolved (fun _ => Graph.holds_of_mem_documents isInput sounds) nonempty
  cases resolved.symm.trans isWhole
  have fed : ∃ patch ∈ instrument.graph.patches, patch.target = ⟨output, "IN"⟩ := by
    by_contra unfed
    push Not at unfed
    exact nonempty ((Graph.documents_eq_nil_iff isInput sounds behind).mpr unfed)
  rw [(instrument.tells_label isSound nonNull).offences isSound nonNull, offend,
    Graph.mem_offences_of_arriving isInput each behind]
  simp only [Graph.lacksSound_iff_of_fed wellPatched found rfl fed]

/-- When the document of an instrument without cycles is read, and why it is refused. -/
structure ReadsBack (instrument : Instrument) (output : ModuleId) (document : Document) : Prop where
  /-- It is read if all filters behind the output are fed. -/
  accepted_iff :
    (∃ loaded, Instrument.ofDocument document = .ok loaded) ↔
      ∀ id mode dials,
        instrument.graph.Behind [output] id →
          instrument.graph.unit? id = some (.filter mode dials) →
            ∃ patch ∈ instrument.graph.patches, patch.target = ⟨id, "IN"⟩
  /-- Otherwise it is refused for the body of a filter that is not. -/
  refused :
    ∀ error,
      Instrument.ofDocument document = .error error →
        ∃ id mode dials,
          instrument.graph.Behind [output] id ∧
            instrument.graph.unit? id = some (.filter mode dials) ∧
            (∀ patch ∈ instrument.graph.patches, patch.target ≠ ⟨id, "IN"⟩) ∧
            error =
              .unknownDefinition (.object [(mode.key, .object (Filter.parameters dials))])

/-- Every instrument without cycles that can come about is read back if its filters are fed. -/
theorem readsBack_of_reachable
    {instrument : Instrument}
    (reachable : instrument.Reachable)
    {output : ModuleId}
    (isOutput : instrument.graph.findKind? InstrumentUnit.outputKind = some output)
    (acyclic : instrument.graph.AcyclicBehind [output])
    {document : Document}
    (compiled : instrument.compile? = some document) :
    instrument.ReadsBack output document := by
  have settles := settles_ofDocument document
  have offends := mem_offences_compiled reachable.storable isOutput acyclic compiled
  have isThere := Graph.live_of_findKind? isOutput
  constructor
  · rw [settles.ok_iff, List.eq_nil_iff_forall_not_mem]
    constructor
    · intro noneOffends id mode dials behind found
      by_contra unfed
      push Not at unfed
      obtain ⟨_, path⟩ := Graph.behind_singleton_iff.mp behind
      exact noneOffends _ ((offends _).mpr ⟨_, ⟨id, mode, dials, path, found, unfed, rfl⟩, rfl⟩)
    · intro allFed error isOffence
      obtain ⟨_, ⟨id, mode, dials, path, found, unfed, _⟩, _⟩ := (offends error).mp isOffence
      obtain ⟨patch, member, isTarget⟩ :=
        allFed id mode dials (Graph.behind_singleton_iff.mpr ⟨isThere, path⟩) found
      exact unfed patch member isTarget
  · intro error refused
    have isFirst := (settles.error_iff error).mp refused
    obtain ⟨_, ⟨id, mode, dials, path, found, unfed, rfl⟩, isError⟩ :=
      (offends error).mp (List.mem_of_head? isFirst)
    exact ⟨id, mode, dials, Graph.behind_singleton_iff.mpr ⟨isThere, path⟩, found, unfed, isError⟩

/-- A sine behind two filters, one of which is turned to no number. -/
def fedSound : List (Operation InstrumentUnit) :=
  [.add (.ofWaveform .sine) .origin,
    .add (.ofMode .delay) .origin,
    .add (.ofMode .lowPass) .origin,
    .setDial 4 "cutoff" .notANumber,
    .connect ⟨2, "OUT"⟩ ⟨3, "IN"⟩,
    .connect ⟨3, "OUT"⟩ ⟨4, "IN"⟩,
    .connect ⟨4, "OUT"⟩ ⟨1, "IN"⟩,
    .connect ⟨2, "OUT"⟩ ⟨1, "IN"⟩]

theorem readsBack_of_reachable_fed :
    let instrument : Instrument := ⟨some "pad", none, Instrument.new.graph.run fedSound⟩
    instrument.graph.AcyclicBehind [outputId] ∧
      ∃ document loaded,
        instrument.compile? = some document ∧
          instrument.ReadsBack outputId document ∧
          Instrument.ofDocument document = .ok loaded := by
  intro instrument
  have acyclic : instrument.graph.AcyclicBehind [outputId] := by
    let height : ModuleId → Nat := fun id => [0, 4, 1, 2, 3].getD id 0
    exact Graph.acyclicBehind_of_wellFounded (Graph.wellFounded_feeds height (by decide +kernel)) _
  have reachable : instrument.Reachable :=
    reachable_run (Operation.drawn_of_isPlain (by decide +kernel)) _ _
  have isOutput : instrument.graph.findKind? InstrumentUnit.outputKind = some outputId := by
    decide +kernel
  obtain ⟨document, compiled⟩ := exists_compiled reachable.storable isOutput (by decide +kernel)
  have readsBack := readsBack_of_reachable reachable isOutput acyclic compiled
  have allFed :
      ∀ module ∈ instrument.graph.modules,
        FilterMode.ofKind? module.unit.kind = none ∨
          ∃ patch ∈ instrument.graph.patches, patch.target = ⟨module.id, "IN"⟩ := by
    decide +kernel
  obtain ⟨loaded, accepted⟩ := readsBack.accepted_iff.mpr (by
    intro id mode dials _ found
    obtain ⟨module, isModule, isFilter⟩ := Option.map_eq_some_iff.mp found
    obtain ⟨member, rfl⟩ := Graph.module?_some isModule
    rcases allFed module member with notFilter | fed
    · rw [isFilter] at notFilter
      cases mode <;> cases notFilter
    · exact fed)
  exact ⟨acyclic, document, loaded, compiled, readsBack, accepted⟩

/-- A distortion of nothing is compiled, and its document is refused. -/
theorem refused_compiled_distortion :
    let instrument : Instrument :=
      ⟨none, none,
        Instrument.new.graph.run
          [.add (.ofMode .distortion) .origin, .connect ⟨2, "OUT"⟩ ⟨1, "IN"⟩]⟩
    let body : Document := .object [("distortion", .object [])]
    instrument.Reachable ∧
      instrument.graph.findKind? InstrumentUnit.outputKind = some outputId ∧
      instrument.graph.AcyclicBehind [outputId] ∧
      instrument.compile? = some (.object [("filter", body)]) ∧
      Instrument.ofDocument (.object [("filter", body)]) = .error (.unknownDefinition body) := by
  intro instrument body
  have acyclic : instrument.graph.AcyclicBehind [outputId] := by
    let height : ModuleId → Nat := fun id => [0, 2, 1].getD id 0
    exact Graph.acyclicBehind_of_wellFounded (Graph.wellFounded_feeds height (by decide +kernel)) _
  have reachable : instrument.Reachable :=
    reachable_run (Operation.drawn_of_isPlain (by decide +kernel)) _ _
  have noSounds : ∀ document ∈ ([] : List Document), document.IsSound := by
    simp
  have offends : (Document.object [("filter", body)]).offences = [.unknownDefinition body] :=
    offences_filter .distortion [] noSounds
  refine ⟨reachable, by decide +kernel, acyclic, by cbv, ?_⟩
  rw [(settles_ofDocument _).error_iff, offends, List.head?_cons]

end Instrument

end SynthGraph
