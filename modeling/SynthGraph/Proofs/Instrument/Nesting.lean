import SynthGraph.Proofs.Graph.Audio
import SynthGraph.Proofs.Graph.PatchPaths
import SynthGraph.Proofs.Instrument.Layers

namespace SynthGraph

/-!
# How deep compiled instruments nest

Without cycles every module is compiled after all that is patched into it, so
nothing is missing from its document: the document of an instrument nests
filters as deep as the longest path of filters into the output, and an automatic
pitch nests transposes as deep as the longest path of transposes into its wave
(`Instrument.nestsByPaths_of_reachable`).
-/

open Document

namespace InstrumentUnit

variable {unit : InstrumentUnit} {name : String} {signal : Signal}

theorem exists_input_of_takesUp?
    (takesUp : unit.takesUp? = some name) :
    ∃ signal, UnitLike.socket? unit name = some (.input name signal) := by
  cases unit <;> cases takesUp <;> exact ⟨_, rfl⟩

/-- Units that hear take up what they hear. -/
theorem takesUp?_of_hears
    (hears : unit.hears)
    (isInput : .input name signal ∈ UnitLike.sockets unit) :
    unit.takesUp? = some name := by
  obtain ⟨rfl, _⟩ := input_of_hears hears isInput
  cases unit <;> simp_all [InstrumentUnit.hears, takesUp?]

/-- Units that send a frequency take up all that they get, and get frequencies only. -/
theorem takesUp?_of_sent?
    (isSent : unit.sent? = some .frequency)
    (isInput : .input name signal ∈ UnitLike.sockets unit) :
    signal = .frequency ∧ unit.takesUp? = some name := by
  cases unit <;>
    simp_all [UnitLike.sockets, sockets, Transpose.sockets, Socket.input, Socket.output, sent?,
      takesUp?]

/-- What stands in a document that a unit hears stands in its own. -/
theorem hasInside_compile
    {arriving : Connections}
    (formed :
      ∀ socket ∈ UnitLike.inputs unit,
        ∀ document ∈ arriving.documents socket.name, socket.signal.Form document)
    (hears : unit.hears)
    {document : Document}
    (arrives : document ∈ arriving.documents "IN")
    {field : String × Document}
    (inside : document.HasInside field) :
    ∃ own, (unit.compile arriving).document? = some own ∧ own.HasInside field := by
  have merges := mergesAll_of_formed formed
  cases unit with
  | output =>
      obtain ⟨whole, isWhole, insideWhole⟩ := hasInside_resolve? arrives inside
      refine ⟨whole, ?_, insideWhole⟩
      rw [compile, Emission.document?_ofDocument?]
      exact isWhole
  | filter mode dials =>
      have each := formed (.input "IN" .audio) List.mem_cons_self
      exact ⟨_, rfl,
        (hasInside_merge? arrives inside (fun _ => IsAudio.isSingle) each merges).keyed "filter"⟩
  | input | generator | wav | transpose | panning =>
      cases hears

end InstrumentUnit

namespace Graph

variable
  {graph : Graph InstrumentUnit}
  {output id : ModuleId}
  {unit : InstrumentUnit}
  {meaning : ModuleId → Emission}

/-- What a module sends has the form of its signal. -/
def SendsForm (graph : Graph InstrumentUnit) (id : ModuleId) (emission : Emission) : Prop :=
  ∀ name signal document,
    graph.HasSocket ⟨id, name⟩ .output signal →
      emission.document? = some document → signal.Form document

variable (output) in
/-- Documents of the forms of its inputs arrive at a module. -/
theorem formed_of_gathered
    (wellPatched : graph.WellPatched)
    (found : graph.unit? id = some unit)
    (each : ∀ producer, graph.Feeds producer id → graph.SendsForm producer (meaning producer)) :
    ∀ socket ∈ UnitLike.inputs unit,
      ∀ document ∈
          (graph.gathered (graph.discover [output]) meaning id unit).documents socket.name,
        socket.signal.Form document := by
  intro socket isListed document arrives
  have isInput := hasSocket_of_mem_inputs found isListed
  have ⟨sameUnit, sameFound, isSocket⟩ := isInput
  obtain rfl := Option.some.inj (found.symm.trans sameFound)
  obtain ⟨producer, isProducer, _, isDocument⟩ := (mem_documents_iff isSocket).mp arrives
  have feeds := feeds_of_mem_producersInto isProducer
  obtain ⟨patch, member, isTarget, rfl⟩ := mem_producersInto.mp isProducer
  exact each _ feeds patch.source.socket _ document
    (wellPatched.source_of_input isInput member isTarget) isDocument

theorem Means.sendsForm
    (storable : graph.Storable)
    {emission : Emission}
    (means : graph.Means () (graph.discover [output]) id emission) :
    graph.SendsForm id emission := by
  induction means with
  | @unit id unit meaning found _ inductionHypothesis =>
      intro name signal document isOutput isDocument
      exact InstrumentUnit.form_of_formed
        (formed_of_gathered output storable.wellPatched found inductionHypothesis)
        (storable.unit_tuned found) (isOutput.mem_sockets found) isDocument

section Layers

variable {layer : Layer}

/-- What a module means nests as its unit adds to what it takes up. -/
theorem nesting_gathered
    (storable : graph.Storable)
    (found : graph.unit? id = some unit)
    (producersMean :
      ∀ producer,
        graph.Feeds producer id →
          graph.Means () (graph.discover [output]) producer (meaning producer)) :
    (UnitLike.compile () (graph.gathered (graph.discover [output]) meaning id unit) unit).nesting
        layer.key =
      (if layer.isAdded unit then 1 else 0) +
        unit.takesUp?.elim 0 fun name =>
          itemsNesting layer.key
            ((graph.gathered (graph.discover [output]) meaning id unit).documents name) :=
  InstrumentUnit.nesting_compile layer (storable.unit_tuned found)
    (formed_of_gathered output storable.wellPatched found fun producer feeds =>
      (producersMean producer feeds).sendsForm storable)

/-- Where all producers nest by their paths, so does the deepest document that arrives. -/
theorem isGreatest_itemsNesting
    {name : String}
    {signal : Signal}
    (isInput : UnitLike.socket? unit name = some (.input name signal))
    (behind : graph.Behind [output] id)
    (each :
      ∀ producer ∈ graph.producersInto ⟨id, name⟩,
        IsGreatest (graph.countsThrough layer.isAdded producer)
          ((meaning producer).nesting layer.key)) :
    IsGreatest (graph.countsInto layer.isAdded ⟨id, name⟩)
      (itemsNesting layer.key
        ((graph.gathered (graph.discover [output]) meaning id unit).documents name)) := by
  apply isGreatest_countsInto
  · intro producer isProducer count through
    refine ((each producer isProducer).2 through).trans ?_
    cases isDocument : (meaning producer).document? with
    | none =>
        -- Where the played pitch comes in nothing is written, so nothing counts.
        simp [Emission.nesting, isDocument]
    | some document =>
        have arrives :=
          (mem_documents_iff isInput).mpr
            ⟨producer, isProducer, behind.of_feeds (feeds_of_mem_producersInto isProducer),
              isDocument⟩
        rw [Emission.nesting, isDocument]
        exact nesting_le_itemsNesting arrives
  · by_cases nothing :
        itemsNesting layer.key
          ((graph.gathered (graph.discover [output]) meaning id unit).documents name) = 0
    · exact Or.inl nothing
    · obtain ⟨document, arrives, isDeepest⟩ := exists_nesting_eq nothing
      obtain ⟨producer, isProducer, _, isDocument⟩ := (mem_documents_iff isInput).mp arrives
      refine Or.inr ⟨producer, isProducer, ?_⟩
      have attained := (each producer isProducer).1
      rw [Emission.nesting, isDocument] at attained
      rw [← isDeepest]
      exact attained

/--
Modules nest a layer by their paths if nothing of the layer is patched into them
beside what they take up.  The modules of which this is known are kept; what
feeds them is kept as well.
-/
theorem Means.isGreatest_countsThrough
    (layer : Layer)
    (kept : ModuleId → Prop)
    (storable : graph.Storable)
    (closed : ∀ producer id, graph.Feeds producer id → kept id → kept producer)
    (aside :
      ∀ id unit socket,
        kept id →
          graph.unit? id = some unit →
            unit.takesUp? ≠ some socket →
              ∀ count ∈ graph.countsInto layer.isAdded ⟨id, socket⟩, count = 0)
    {emission : Emission}
    (means : graph.Means () (graph.discover [output]) id emission)
    (behind : graph.Behind [output] id)
    (isKept : kept id) :
    IsGreatest (graph.countsThrough layer.isAdded id) (emission.nesting layer.key) := by
  induction means with
  | @unit id unit meaning found producersMean inductionHypothesis =>
      rw [nesting_gathered storable found producersMean]
      cases takesUp : unit.takesUp? with
      | none =>
          have nowhere (socket : String) :
              ∀ count ∈ graph.countsInto layer.isAdded ⟨id, socket⟩, count = 0 :=
            aside id unit socket isKept found (by simp [takesUp])
          -- No socket counts, so any will do.
          have greatest : IsGreatest (graph.countsInto layer.isAdded ⟨id, "IN"⟩) 0 :=
            ⟨zero_mem_countsInto graph _ _, fun count isCount =>
              Nat.le_of_eq (nowhere "IN" count isCount)⟩
          exact Graph.isGreatest_countsThrough found greatest fun other _ => nowhere other
      | some name =>
          obtain ⟨signal, isInput⟩ := InstrumentUnit.exists_input_of_takesUp? takesUp
          have greatest :=
            isGreatest_itemsNesting isInput behind fun producer isProducer =>
              have feeds := feeds_of_mem_producersInto isProducer
              inductionHypothesis producer feeds (behind.of_feeds feeds)
                (closed producer id feeds isKept)
          refine Graph.isGreatest_countsThrough found greatest fun other different => ?_
          exact aside id unit other isKept found (by simpa [takesUp] using different.symm)

end Layers

section Aside

variable
  (wellPatched : graph.WellPatched)
  {counted : InstrumentUnit → Bool}
  (found : graph.unit? id = some unit)
  {socket : String}
  (notTaken : unit.takesUp? ≠ some socket)

include wellPatched found notTaken

/-- If a unit takes up all that it gets, nothing is patched in beside that. -/
theorem eq_zero_of_takesAll
    (takesAll :
      ∀ name signal, .input name signal ∈ UnitLike.sockets unit → unit.takesUp? = some name) :
    ∀ count ∈ graph.countsInto counted ⟨id, socket⟩, count = 0 := by
  intro count isCount
  refine (mem_countsInto_iff.mp isCount).resolve_right ?_
  rintro ⟨producer, isProducer, _⟩
  obtain ⟨patch, member, isTarget, _⟩ := mem_producersInto.mp isProducer
  have isInput := wellPatched.target_input patch member
  rw [isTarget] at isInput
  exact notTaken (takesAll socket _ (isInput.mem_sockets found))

/-- No filter stands behind what a unit does not take up. -/
theorem filters_eq_zero :
    ∀ count ∈ graph.countsInto Layer.filter.isAdded ⟨id, socket⟩, count = 0 := by
  by_cases hears : unit.hears
  · exact eq_zero_of_takesAll wellPatched found notTaken
      fun _ _ => InstrumentUnit.takesUp?_of_hears hears
  · -- Filters lead to what hears only.
    intro count
    apply eq_zero_of_mem_countsInto
    intro other otherUnit otherFound path
    by_contra isFilter
    refine hears (hears_of_path wellPatched otherFound found path ?_)
    cases otherUnit <;> simp_all [Layer.isAdded, InstrumentUnit.hears]

end Aside

/-- Whether a module sends a frequency. -/
def SendsFrequency (graph : Graph InstrumentUnit) (id : ModuleId) : Prop :=
  ∃ unit, graph.unit? id = some unit ∧ unit.sent? = some .frequency

theorem SendsFrequency.of_hasSocket
    {name : String}
    (isOutput : graph.HasSocket ⟨id, name⟩ .output .frequency) :
    graph.SendsFrequency id := by
  have ⟨unit, found, _⟩ := isOutput
  exact ⟨unit, found, InstrumentUnit.sent?_of_mem_sockets (isOutput.mem_sockets found)⟩

theorem SendsFrequency.of_feeds
    (wellPatched : graph.WellPatched)
    {producer : ModuleId}
    (feeds : graph.Feeds producer id)
    (sends : graph.SendsFrequency id) :
    graph.SendsFrequency producer := by
  obtain ⟨unit, found, isSent⟩ := sends
  obtain ⟨patch, member, rfl, rfl⟩ := feeds
  have isInput := (wellPatched.target_input patch member).mem_sockets found
  have source := wellPatched.source_output patch member
  rw [(InstrumentUnit.takesUp?_of_sent? isSent isInput).1] at source
  exact .of_hasSocket source

section Means

variable
  (storable : graph.Storable)
  {emission : Emission}
  (means : graph.Means () (graph.discover [output]) id emission)
  (behind : graph.Behind [output] id)

include storable means behind

/-- A module nests filters as deep as the longest path of filters that ends with it. -/
theorem Means.isGreatest_filters :
    IsGreatest (graph.countsThrough Layer.filter.isAdded id) (emission.nesting "filter") :=
  means.isGreatest_countsThrough .filter (fun _ => True) storable (fun _ _ _ _ => trivial)
    (fun _ _ _ _ found notTaken => filters_eq_zero storable.wellPatched found notTaken)
    behind trivial

/-- A pitch nests transposes as deep as the longest path of transposes that ends with it. -/
theorem Means.isGreatest_transposes
    (sends : graph.SendsFrequency id) :
    IsGreatest (graph.countsThrough Layer.transpose.isAdded id)
      (emission.nesting Transpose.kind) := by
  refine means.isGreatest_countsThrough .transpose graph.SendsFrequency storable
    (fun _ _ => SendsFrequency.of_feeds storable.wellPatched) ?_ behind sends
  rintro id unit socket ⟨sameUnit, sameFound, isSent⟩ found notTaken
  obtain rfl := Option.some.inj (found.symm.trans sameFound)
  exact eq_zero_of_takesAll storable.wellPatched found notTaken fun _ _ isInput =>
    (InstrumentUnit.takesUp?_of_sent? isSent isInput).2

/-- The document of an output nests filters as deep as the longest path of filters into it. -/
theorem Means.isGreatest_output
    (found : graph.unit? id = some .output) :
    IsGreatest (graph.countsInto Layer.filter.isAdded ⟨id, "IN"⟩) (emission.nesting "filter") := by
  cases means with
  | @unit _ unit meaning sameFound producersMean =>
      obtain rfl := Option.some.inj (found.symm.trans sameFound)
      rw [show "filter" = Layer.filter.key from rfl, nesting_gathered storable found producersMean,
        InstrumentUnit.takesUp?, Option.elim_some, if_neg (by decide), Nat.zero_add]
      refine isGreatest_itemsNesting rfl behind fun producer isProducer => ?_
      have feeds := feeds_of_mem_producersInto isProducer
      exact (producersMean producer feeds).isGreatest_filters storable (behind.of_feeds feeds)

/-- An automatic pitch nests transposes as deep as the longest path of transposes into its wave. -/
theorem Means.isGreatest_automatic
    {waveform : Waveform}
    {dials : Dials}
    (found : graph.unit? id = some (.generator waveform dials)) :
    ∃ body,
      emission = .document (.keyed waveform.documentKey body) ∧
        IsGreatest (graph.countsInto Layer.transpose.isAdded ⟨id, "FREQ"⟩)
          ((Entries.get? "auto_pitch" body).elim 0 (nesting "transpose")) := by
  cases means with
  | @unit _ unit meaning sameFound producersMean =>
      obtain rfl := Option.some.inj (found.symm.trans sameFound)
      refine ⟨_, rfl, ?_⟩
      have isNesting :=
        Generator.nesting_automatic .transpose dials
          (graph.gathered (graph.discover [output]) meaning id (.generator waveform dials))
      rw [show "transpose" = Layer.transpose.key from rfl, isNesting]
      refine isGreatest_itemsNesting rfl behind fun producer isProducer => ?_
      have feeds := feeds_of_mem_producersInto isProducer
      obtain ⟨patch, member, isTarget, rfl⟩ := mem_producersInto.mp isProducer
      have source := storable.wellPatched.source_of_input ⟨_, found, rfl⟩ member isTarget
      exact (producersMean _ feeds).isGreatest_transposes storable (behind.of_feeds feeds)
        (.of_hasSocket source)

end Means

/-- A module sends audio if anything, and a field stands in the document that it means. -/
structure Sounds
    (graph : Graph InstrumentUnit)
    (output : ModuleId)
    (field : String × Document)
    (id : ModuleId) :
    Prop where
  sends_audio :
    ∃ unit,
      graph.unit? id = some unit ∧
        ∀ name signal, .output name signal ∈ UnitLike.sockets unit → signal = .audio
  means :
    ∃ emission document,
      graph.Means () (graph.discover [output]) id emission ∧
        emission.document? = some document ∧ document.HasInside field

section Sounds

variable
  (storable : graph.Storable)
  (reduces : graph.ReducesToMeaning () [output])
  (isThere : (graph.module? output).isSome)
  {field : String × Document}

include storable reduces isThere

/-- What stands in the document of a module stands in that of the next on the way to the output. -/
theorem Sounds.of_feeds
    {next : ModuleId}
    (sounds : graph.Sounds output field id)
    (feeds : graph.Feeds id next)
    (later : Relation.ReflTransGen graph.Feeds next output) :
    graph.Sounds output field next := by
  have wellPatched := storable.wellPatched
  obtain ⟨unit, found, sendsAudio⟩ := sounds.sends_audio
  obtain ⟨emission, document, means, isDocument, inside⟩ := sounds.means
  have ⟨patch, member, isSource, isNext⟩ := feeds
  subst isSource isNext
  have isOutput := (wellPatched.source_output patch member).mem_sockets found
  obtain ⟨nextUnit, nextFound, isInput⟩ := wellPatched.target_input patch member
  rw [sendsAudio _ _ isOutput] at isInput
  have hears := InstrumentUnit.hears_of_mem_sockets (UnitLike.socket?_some isInput).1
  refine ⟨⟨nextUnit, nextFound, fun _ _ => InstrumentUnit.audio_of_hears hears⟩, ?_⟩
  have isTarget := target_of_hears wellPatched member nextFound hears
  rw [congrArg Endpoint.socket isTarget] at isInput
  have behind : graph.Behind [output] patch.source.module :=
    behind_singleton_iff.mpr ⟨isThere, .head feeds later⟩
  obtain ⟨nextEmission, _, nextMeans⟩ :=
    reduces.exists_get? (behind_singleton_iff.mpr ⟨isThere, later⟩)
  cases nextMeans with
  | @unit _ sameNext meaning sameNextFound producersMean =>
      obtain rfl := Option.some.inj (nextFound.symm.trans sameNextFound)
      have isMeaning := (producersMean _ feeds).unique means
      have arrives :=
        (mem_documents_iff isInput).mpr
          ⟨_, mem_producersInto.mpr ⟨patch, member, isTarget, rfl⟩, behind,
            (congrArg Emission.document? isMeaning).trans isDocument⟩
      have formed :=
        formed_of_gathered output wellPatched nextFound fun producer feeds =>
          (producersMean producer feeds).sendsForm storable
      obtain ⟨own, isOwn, insideOwn⟩ :=
        InstrumentUnit.hasInside_compile formed hears arrives inside
      exact ⟨_, own, .unit nextFound producersMean, isOwn, insideOwn⟩

/-- What stands in the document of a module on the way to the output stands in the output's. -/
theorem Sounds.of_path
    (path : Relation.ReflTransGen graph.Feeds id output)
    (sounds : graph.Sounds output field id) :
    graph.Sounds output field output := by
  induction path using Relation.ReflTransGen.head_induction_on with
  | refl =>
      exact sounds
  | head feeds later inductionHypothesis =>
      exact inductionHypothesis (sounds.of_feeds storable reduces isThere feeds later)

end Sounds

end Graph

namespace Instrument

/-- The name and the bank slot nest no layers. -/
theorem fieldsNesting_labels
    (layer : Layer)
    (instrument : Instrument) :
    fieldsNesting layer.key instrument.labels = 0 := by
  have notIndex : "index" ≠ layer.key := by
    cases layer <;> decide
  have notName : "name" ≠ layer.key := by
    cases layer <;> decide
  apply fieldsNesting_eq_zero
  intro field member
  rcases List.mem_append.mp member with isIndex | isName
  · obtain ⟨index, _, rfl⟩ := List.mem_map.mp isIndex
    exact ⟨notIndex, rfl⟩
  · obtain ⟨name, _, rfl⟩ := List.mem_map.mp isName
    exact ⟨notName, rfl⟩

/-- How deep the document of an instrument nests. -/
structure NestsByPaths
    (instrument : Instrument)
    (output : ModuleId)
    (document : Document) :
    Prop where
  /-- Filters are nested as deep as they follow one another on a path into the output. -/
  filters :
    IsGreatest (instrument.graph.countsInto Layer.filter.isAdded ⟨output, "IN"⟩)
      (document.nesting "filter")
  /--
  Every wave behind the output stands in the document, and its automatic pitch nests
  transposes as deep as they follow one another on a path into the wave.
  -/
  transposes :
    ∀ id waveform dials,
      instrument.graph.Behind [output] id →
        instrument.graph.unit? id = some (.generator waveform dials) →
          ∃ body,
            (instrument.emissions output).get? id =
                some (.document (.keyed waveform.documentKey body)) ∧
              document.HasInside (waveform.documentKey, .object body) ∧
              IsGreatest (instrument.graph.countsInto Layer.transpose.isAdded ⟨id, "FREQ"⟩)
                ((Entries.get? "auto_pitch" body).elim 0 (nesting "transpose"))

/-- Without cycles the document of an instrument nests as deep as its paths go. -/
theorem nestsByPaths_of_reachable
    {instrument : Instrument}
    (reachable : instrument.Reachable)
    {output : ModuleId}
    (isOutput : instrument.graph.findKind? InstrumentUnit.outputKind = some output)
    (acyclic : instrument.graph.AcyclicBehind [output])
    {document : Document}
    (compiled : instrument.compile? = some document) :
    instrument.NestsByPaths output document := by
  have storable := reachable.storable
  have reduces := Graph.reducesToMeaning_of_acyclic storable.wellPatched () acyclic
  have isThere := Graph.live_of_findKind? isOutput
  have found := unit?_of_isOutput storable isOutput
  obtain ⟨same, sound, isSame, emitted, _, hasFields⟩ :=
    (followsGrammar_of_storable storable).compiled document compiled
  obtain rfl := Option.some.inj (isOutput.symm.trans isSame)
  obtain ⟨behind, means⟩ := (reduces.mem_reduce _ _).mp (Emissions.mem_of_get? emitted)
  constructor
  · have noneLabelled : fieldsNesting "filter" instrument.labels = 0 :=
      fieldsNesting_labels .filter instrument
    have sameNesting : document.nesting "filter" = (object sound).nesting "filter" := by
      rw [hasFields.nesting_eq, fieldsNesting_append, noneLabelled, Nat.zero_max, nesting]
    rw [sameNesting]
    exact means.isGreatest_output storable behind found
  · intro id waveform dials waveBehind waveFound
    obtain ⟨wave, isWave, waveMeans⟩ := reduces.exists_get? waveBehind
    obtain ⟨body, rfl, greatest⟩ := waveMeans.isGreatest_automatic storable waveBehind waveFound
    refine ⟨body, isWave, ?_, greatest⟩
    have sounds :
        instrument.graph.Sounds output (waveform.documentKey, .object body) id := by
      refine ⟨⟨_, waveFound, fun name signal isSocket => ?_⟩, _, _, waveMeans, rfl, ?_⟩
      · have isSent := InstrumentUnit.sent?_of_mem_sockets isSocket
        exact (Option.some.inj isSent).symm
      · exact .here (List.mem_singleton_self _)
    obtain ⟨_, path⟩ := Graph.behind_singleton_iff.mp waveBehind
    obtain ⟨last, whole, lastMeans, isWhole, inside⟩ :=
      (sounds.of_path storable reduces isThere path).means
    obtain rfl := lastMeans.unique means
    obtain rfl := Option.some.inj isWhole
    exact hasFields.hasInside (inside.mono (List.subset_append_right _ _))

/-- A sine that is heard through two filters, through one of them and directly. -/
def nestedSound : List (Operation InstrumentUnit) :=
  [.add (.transpose Transpose.dials) .origin,
    .add (.transpose Transpose.dials) .origin,
    .add (.ofWaveform .sine) .origin,
    .add (.ofMode .lowPass) .origin,
    .add (.ofMode .delay) .origin,
    .connect ⟨0, "FREQ"⟩ ⟨2, "FREQ IN"⟩,
    .connect ⟨2, "FREQ"⟩ ⟨3, "FREQ IN"⟩,
    .connect ⟨2, "FREQ"⟩ ⟨4, "FREQ"⟩,
    .connect ⟨3, "FREQ"⟩ ⟨4, "FREQ"⟩,
    .connect ⟨4, "OUT"⟩ ⟨1, "IN"⟩,
    .connect ⟨4, "OUT"⟩ ⟨6, "IN"⟩,
    .connect ⟨4, "OUT"⟩ ⟨5, "IN"⟩,
    .connect ⟨5, "OUT"⟩ ⟨6, "IN"⟩,
    .connect ⟨6, "OUT"⟩ ⟨1, "IN"⟩]

/-- The longest paths count, in the document and in the pitch of the sine. -/
theorem nestsByPaths_of_reachable_nested :
    let instrument : Instrument := ⟨some "organ", some 1, Instrument.new.graph.run nestedSound⟩
    instrument.graph.AcyclicBehind [outputId] ∧
      ∃ document,
        instrument.compile? = some document ∧
          instrument.NestsByPaths outputId document ∧
          2 ≤ document.nesting "filter" ∧
          ∃ body,
            document.HasInside ("sine", .object body) ∧
              2 ≤ (Entries.get? "auto_pitch" body).elim 0 (nesting "transpose") := by
  intro instrument
  have acyclic : instrument.graph.AcyclicBehind [outputId] := by
    let height : ModuleId → Nat := fun id => [0, 6, 1, 2, 3, 4, 5].getD id 0
    exact Graph.acyclicBehind_of_wellFounded (Graph.wellFounded_feeds height (by decide +kernel)) _
  have reachable : instrument.Reachable :=
    reachable_run (Operation.drawn_of_isPlain (by decide +kernel)) _ _
  have isOutput : instrument.graph.findKind? InstrumentUnit.outputKind = some outputId := by
    decide +kernel
  obtain ⟨document, compiled⟩ := exists_compiled reachable.storable isOutput (by decide +kernel)
  have nests := nestsByPaths_of_reachable reachable isOutput acyclic compiled
  have patched :
      [⟨⟨6, "OUT"⟩, ⟨1, "IN"⟩, .audio⟩, ⟨⟨5, "OUT"⟩, ⟨6, "IN"⟩, .audio⟩,
        ⟨⟨3, "FREQ"⟩, ⟨4, "FREQ"⟩, .frequency⟩,
        ⟨⟨2, "FREQ"⟩, ⟨3, "FREQ IN"⟩, .frequency⟩] ⊆ instrument.graph.patches := by
    decide +kernel
  have filters : instrument.graph.PathInto ⟨1, "IN"⟩ [6, 5] :=
    .patch (patched (.head _)) rfl (.patch (patched (.tail _ (.head _))) rfl (.here ⟨5, "IN"⟩))
  have transposes : instrument.graph.PathInto ⟨4, "FREQ"⟩ [3, 2] :=
    .patch (patched (.tail _ (.tail _ (.head _)))) rfl
      (.patch (patched (.tail _ (.tail _ (.tail _ (.head _))))) rfl (.here ⟨2, "FREQ IN"⟩))
  have isWave : instrument.graph.unit? 4 = some (.ofWaveform .sine) := by
    decide +kernel
  have behind : instrument.graph.Behind [outputId] 4 := by
    refine Graph.behind_singleton_iff.mpr ⟨by decide +kernel, .single ?_⟩
    exact ⟨⟨⟨4, "OUT"⟩, ⟨1, "IN"⟩, .audio⟩, by decide +kernel, rfl, rfl⟩
  obtain ⟨body, _, inside, pitch⟩ := nests.transposes 4 .sine Generator.dials behind isWave
  exact ⟨acyclic, document, compiled, nests, nests.filters.2 ⟨_, filters, by decide +kernel⟩,
    body, inside, pitch.2 ⟨_, transposes, by decide +kernel⟩⟩

end Instrument

end SynthGraph
