import SynthGraph.Proofs.Definition.Placement

namespace SynthGraph

/-!
# What a loaded definition compiles to

The audio documents of a definition are defined by recursion over the definition,
without a graph.  In a graph in which a definition is placed, its heads mean these
documents in this order (`Placed.map_heads`): a transpose means the shift of the
pitch it gets, a sound source takes the pitch of the transpose around it, and a
filter takes up what the heads of its body mean.
-/

namespace Definition

/-- The document of a sound source whose pitch socket is patched. -/
def sounded (pitch : Option Document) : InstrumentUnit → Document
  | .generator waveform dials =>
      let written := Generator.dialFields dials Generator.writtenDials
      .keyed waveform.documentKey
        (match pitch with
        | some pitch => Entries.insert "auto_pitch" pitch written
        | none => written)
  | .wav sample dials => sample.compile dials
  | _ => .null

mutual

/-- The audio documents of a definition under an optional pitch. -/
def documents (pitch : Option Document) : Definition → List Document
  | combined parts => documentsAll pitch parts
  | panning body => body.documents pitch
  | transpose dials body => body.documents (some (Transpose.shift dials pitch))
  | generator unit => [sounded pitch unit]
  | omitted => []
  | filter mode dials body =>
      [.keyed "filter" (Filter.body mode dials (Document.resolve? (body.documents pitch)))]

/-- The audio documents of several definitions. -/
def documentsAll (pitch : Option Document) : List Definition → List Document
  | [] => []
  | first :: rest => first.documents pitch ++ documentsAll pitch rest

end

theorem resolve?_of_single
    {connections : Connections}
    {socket : String}
    {emission : Emission}
    (only : connections.get socket = [emission]) :
    connections.resolve? socket = emission.document? := by
  cases document : emission.document? <;>
    simp [Connections.resolve?, Connections.documents, only, document, Document.resolve?]

/-- A sound source whose pitch socket gets one emission plays at its pitch. -/
theorem compile_generator
    {unit : InstrumentUnit}
    (isGenerator : unit.isGenerator)
    {connections : Connections}
    {emission : Emission}
    (only : connections.get "FREQ" = [emission]) :
    unit.compile connections = .document (sounded emission.document? unit) := by
  have connected : connections.isConnected "FREQ" = true := by
    simp [Connections.isConnected, only]
  cases unit with
  | generator waveform dials =>
      cases isDocument : emission.document? <;>
        simp only [InstrumentUnit.compile, Generator.compile, Generator.body, connected, if_true,
          resolve?_of_single only, sounded, isDocument]
  | wav sample dials =>
      rfl
  | _ =>
      cases isGenerator

section Placed

variable
  {graph : Draft}
  {sinks : List ModuleId}
  {meaning : ModuleId → Emission}
  {frequency consumer start : Nat}

/-- Everything a module was patched with arrives, in order of discovery. -/
theorem gathered_get
    (graph : Draft)
    (sinks : List ModuleId)
    (meaning : ModuleId → Emission)
    (id : ModuleId)
    {unit : InstrumentUnit}
    {socket : Socket}
    (isInput : socket ∈ UnitLike.inputs unit) :
    (graph.gathered (graph.discover sinks) meaning id unit).get socket.name =
      ((graph.discover sinks).filter
        (· ∈ (leadingTo ⟨id, socket.name⟩ graph.patches).map (·.source.module))).map meaning :=
  Connections.get_ofSockets _ isInput

/-- A socket with one patch gets what the module means that the patch comes from. -/
theorem gathered_get_of_single
    (meaning : ModuleId → Emission)
    {id : ModuleId}
    {unit : InstrumentUnit}
    {socket : Socket}
    {patch : Patch}
    (behind : graph.Behind sinks id)
    (isInput : socket ∈ UnitLike.inputs unit)
    (only : leadingTo ⟨id, socket.name⟩ graph.patches = [patch]) :
    graph.Behind sinks patch.source.module ∧
      (graph.gathered (graph.discover sinks) meaning id unit).get socket.name =
        [meaning patch.source.module] := by
  have feeds : graph.Feeds patch.source.module id := by
    have member : patch ∈ leadingTo ⟨id, socket.name⟩ graph.patches := by
      rw [only]
      exact List.mem_singleton_self patch
    obtain ⟨isPatch, isTarget⟩ := List.mem_filter.mp member
    rw [decide_eq_true_eq] at isTarget
    exact ⟨patch, isPatch, rfl, congrArg Endpoint.module isTarget⟩
  have producerBehind := behind.of_feeds feeds
  have isDiscovered := Graph.mem_discover.mpr producerBehind
  have alone :
      (graph.discover sinks).filter (· ∈ [patch.source.module]) = [patch.source.module] :=
    filter_mem_of_sublist (List.singleton_sublist.mpr isDiscovered)
      (Graph.nodup_discover graph sinks)
  refine ⟨producerBehind, ?_⟩
  rw [gathered_get graph sinks meaning id isInput, only, List.map_singleton, alone, List.map_singleton]

/-- A transpose behind the sinks means the shift of the pitch it gets. -/
theorem Placed.meaning_transpose
    {dials : Dials}
    {body : Definition}
    (placed : Placed graph frequency consumer start (.transpose dials body))
    (wellPatched : graph.WellPatched)
    (isMeaning : graph.IsMeaning () (graph.discover sinks) meaning)
    {pitch : Option Document}
    (pitched : graph.Behind sinks frequency → (meaning frequency).document? = pitch)
    (behind : graph.Behind sinks start) :
    meaning start = .document (Transpose.shift dials pitch) := by
  have found := placed.unit?_start rfl
  obtain ⟨pitchBehind, arriving⟩ :=
    gathered_get_of_single meaning behind
      (show .input "FREQ IN" .frequency ∈ UnitLike.inputs (InstrumentUnit.transpose dials)
        from List.mem_cons_self)
      placed.into_transpose
  have resolved := (resolve?_of_single arriving).trans (pitched pitchBehind)
  rw [isMeaning.eq_compile wellPatched found]
  exact congrArg (fun pitch => Emission.document (Transpose.shift dials pitch)) resolved

/-- A sound source behind the sinks plays at the pitch it gets. -/
theorem Placed.meaning_generator
    {unit : InstrumentUnit}
    (placed : Placed graph frequency consumer start (.generator unit))
    (isGenerator : unit.isGenerator)
    (wellPatched : graph.WellPatched)
    (isMeaning : graph.IsMeaning () (graph.discover sinks) meaning)
    {pitch : Option Document}
    (pitched : graph.Behind sinks frequency → (meaning frequency).document? = pitch)
    (behind : graph.Behind sinks start) :
    meaning start = .document (sounded pitch unit) := by
  have found := placed.unit?_start rfl
  have isInput : .input "FREQ" .frequency ∈ UnitLike.inputs unit := by
    cases unit <;> first | exact List.mem_cons_self | cases isGenerator
  obtain ⟨pitchBehind, arriving⟩ :=
    gathered_get_of_single meaning behind isInput placed.into_generator
  rw [isMeaning.eq_compile wellPatched found, ← pitched pitchBehind]
  exact compile_generator isGenerator arriving

/-- The modules whose audio goes to a module with one input are discovered in their order. -/
theorem filter_heads
    (wellPatched : graph.WellPatched)
    {definition : Definition}
    (placed : Placed graph frequency consumer start definition)
    (sinksBefore : ∀ sink ∈ sinks, sink < start)
    (isFed :
      leadingTo ⟨consumer, "IN"⟩ graph.patches =
        (definition.heads start).map (Patch.audio · consumer))
    {unit : InstrumentUnit}
    (found : graph.unit? consumer = some unit)
    (onlyInput : UnitLike.inputs unit = [.input "IN" .audio])
    (behind : graph.Behind sinks consumer) :
    (graph.discover sinks).filter (· ∈ definition.heads start) = definition.heads start := by
  have within := within_heads definition start
  have feeders : graph.feeders consumer = definition.heads start := by
    have same :
        graph.patches.filter (·.target.module = consumer) =
          leadingTo ⟨consumer, "IN"⟩ graph.patches := by
      apply List.filter_congr
      intro patch member
      obtain ⟨targetUnit, targetFound, isTarget⟩ := wellPatched.target_input patch member
      rw [decide_eq_decide]
      constructor
      · rintro rfl
        rw [found, Option.some.injEq] at targetFound
        subst targetFound
        have isInput :
            (⟨patch.target.socket, .input, patch.signal⟩ : Socket) ∈ UnitLike.inputs unit :=
          List.mem_filter.mpr ⟨(UnitLike.socket?_some isTarget).1, rfl⟩
        rw [onlyInput, List.mem_singleton] at isInput
        have socket : patch.target.socket = "IN" := congrArg Socket.name isInput
        rw [← socket]
      · rintro isSocket
        rw [isSocket]
    rw [Graph.feeders, same, isFed, List.map_map]
    exact List.map_id _
  refine filter_mem_of_sublist ?_ (Graph.nodup_discover graph sinks)
  rw [← feeders]
  apply Graph.feeders_sublist_discover (Graph.mem_discover.mpr behind)
  · rw [feeders]
    exact within.nodup
  · rw [feeders]
    intro head isHead isSink
    exact Nat.not_le_of_lt (sinksBefore head isSink) (within.bounds head isHead).1
  · rw [feeders]
    intro head isHead other feeds
    exact placed.feeds_of_head isHead feeds

/-- The audio of a module with one input is what the heads mean that are led to it. -/
theorem documents_of_heads
    {definition : Definition}
    (ordered :
      (graph.discover sinks).filter (· ∈ definition.heads start) = definition.heads start)
    (isFed :
      leadingTo ⟨consumer, "IN"⟩ graph.patches =
        (definition.heads start).map (Patch.audio · consumer))
    {unit : InstrumentUnit}
    (onlyInput : UnitLike.inputs unit = [.input "IN" .audio])
    {documents : List Document}
    (headDocuments : (definition.heads start).map meaning = documents.map .document) :
    (graph.gathered (graph.discover sinks) meaning consumer unit).resolve? "IN" =
      Document.resolve? documents := by
  have isInput : .input "IN" .audio ∈ UnitLike.inputs unit := by
    rw [onlyInput]
    exact List.mem_singleton_self _
  have sources :
      ((definition.heads start).map (Patch.audio · consumer)).map (·.source.module) =
        definition.heads start := by
    rw [List.map_map]
    exact List.map_id _
  have arriving := gathered_get graph sinks meaning consumer isInput
  rw [show (Socket.input "IN" .audio).name = "IN" from rfl, isFed, sources, ordered,
    headDocuments] at arriving
  have readBack : Emission.document? ∘ Emission.document = some := rfl
  rw [Connections.resolve?, Connections.documents, arriving, List.filterMap_map, readBack,
    List.filterMap_some]

/-- The heads of a definition that is placed mean its audio documents, in order. -/
theorem Placed.map_heads
    {definition : Definition}
    (sound : definition.Sound)
    (placed : Placed graph frequency consumer start definition)
    (wellPatched : graph.WellPatched)
    (isMeaning : graph.IsMeaning () (graph.discover sinks) meaning)
    (sinksBefore : ∀ sink ∈ sinks, sink < start)
    (headsBehind : ∀ head ∈ definition.heads start, graph.Behind sinks head)
    {pitch : Option Document}
    (pitched : graph.Behind sinks frequency → (meaning frequency).document? = pitch) :
    (definition.heads start).map meaning = (definition.documents pitch).map .document := by
  induction sound generalizing frequency consumer start pitch with
  | silence =>
      rfl
  | @combined first rest _ _ firstHypothesis restHypothesis =>
      have firstBehind := fun head member =>
        headsBehind head (List.mem_append_left _ member)
      have restBehind := fun head member =>
        headsBehind head (List.mem_append_right _ member)
      have later : ∀ sink ∈ sinks, sink < start + first.units.length :=
        fun sink isSink => Nat.lt_add_right _ (sinksBefore sink isSink)
      have firstDocuments := firstHypothesis placed.first sinksBefore firstBehind pitched
      have restDocuments := restHypothesis placed.rest later restBehind pitched
      rw [heads] at restDocuments
      rw [heads, headsAll, List.map_append, firstDocuments, restDocuments, documents, documents,
        documentsAll, List.map_append]
  | panning _ inductionHypothesis =>
      exact inductionHypothesis placed.panning_body
        (fun sink isSink => Nat.lt_succ_of_lt (sinksBefore sink isSink)) headsBehind pitched
  | transpose _ _ inductionHypothesis =>
      apply inductionHypothesis placed.transpose_body
        (fun sink isSink => Nat.lt_succ_of_lt (sinksBefore sink isSink)) headsBehind
      intro behind
      rw [placed.meaning_transpose wellPatched isMeaning pitched behind]
      rfl
  | generator isGenerator _ =>
      have behind := headsBehind start (List.mem_singleton_self start)
      have meant := placed.meaning_generator isGenerator wellPatched isMeaning pitched behind
      simp [heads, documents, meant]
  | omitted =>
      rfl
  | @filter mode dials body _ _ inductionHypothesis =>
      have behind := headsBehind start (List.mem_singleton_self start)
      have found := placed.unit?_start rfl
      have bodySinks : ∀ sink ∈ sinks, sink < start + 1 :=
        fun sink isSink => Nat.lt_succ_of_lt (sinksBefore sink isSink)
      have bodyBehind : ∀ head ∈ body.heads (start + 1), graph.Behind sinks head := by
        intro head isHead
        have isFed : Patch.audio head start ∈ leadingTo ⟨start, "IN"⟩ graph.patches := by
          rw [placed.into_filter]
          exact List.mem_map_of_mem isHead
        exact behind.of_feeds ⟨_, List.mem_of_mem_filter isFed, rfl, rfl⟩
      have bodyDocuments :=
        inductionHypothesis placed.filter_body bodySinks bodyBehind pitched
      have ordered :=
        filter_heads wellPatched placed.filter_body bodySinks placed.into_filter found rfl behind
      have onlyInput :
          UnitLike.inputs (InstrumentUnit.filter mode dials) = [.input "IN" .audio] := rfl
      have resolved :=
        documents_of_heads ordered placed.into_filter onlyInput bodyDocuments
      have meant : meaning start = _ := isMeaning.eq_compile wellPatched found
      rw [heads, List.map_singleton, meant, documents, List.map_singleton, ← resolved]
      rfl

end Placed

/-- A loaded definition compiles to its audio documents in one. -/
theorem compile?_loaded
    {definition : Definition}
    (sound : definition.Sound)
    (name : Option String)
    (bankIndex : Option UInt32) :
    Instrument.compile? ⟨name, bankIndex, definition.loaded⟩ =
      (Document.resolve? (definition.documents none)).map
        (Instrument.label ⟨name, bankIndex, definition.loaded⟩) := by
  have wellPatched := sound.toGraph_eq.2
  have numbered : definition.loaded.Numbered := ready_new.numbered.grow _ _
  have wellFounded :=
    wellFounded_of_directed wellPatched numbered (directed_loaded definition)
  obtain ⟨meaning, isMeaning⟩ :=
    Graph.exists_isMeaning wellPatched wellFounded ()
      (definition.loaded.discover [Instrument.outputId])
  have placed := placed_loaded definition
  have sinksBefore : ∀ sink ∈ [Instrument.outputId], sink < 2 := by
    decide
  have inputFound : definition.loaded.unit? Instrument.inputId = some .input := rfl
  have outputFound : definition.loaded.unit? Instrument.outputId = some .output := rfl
  have outputBehind :
      definition.loaded.Behind [Instrument.outputId] Instrument.outputId :=
    Graph.behind_singleton_iff.mpr ⟨rfl, .refl⟩
  have isFed := leadingTo_output definition
  have headsBehind :
      ∀ head ∈ definition.heads 2, definition.loaded.Behind [Instrument.outputId] head := by
    intro head isHead
    have isPatch :
        Patch.audio head Instrument.outputId ∈
          leadingTo ⟨Instrument.outputId, "IN"⟩ definition.loaded.patches := by
      rw [isFed]
      exact List.mem_map_of_mem isHead
    exact outputBehind.of_feeds ⟨_, List.mem_of_mem_filter isPatch, rfl, rfl⟩
  have inputMeans : (meaning Instrument.inputId).document? = none := by
    rw [isMeaning.eq_compile wellPatched inputFound]
    rfl
  have headDocuments :=
    placed.map_heads sound wellPatched isMeaning sinksBefore headsBehind fun _ => inputMeans
  have ordered :=
    filter_heads wellPatched placed sinksBefore isFed outputFound rfl outputBehind
  have onlyInput : UnitLike.inputs InstrumentUnit.output = [.input "IN" .audio] := rfl
  have outputMeans :
      meaning Instrument.outputId =
        .ofDocument? (Document.resolve? (definition.documents none)) := by
    rw [isMeaning.eq_compile wellPatched outputFound,
      ← documents_of_heads ordered isFed onlyInput headDocuments]
    rfl
  have reduces :=
    Graph.reducesToMeaning_of_acyclic wellPatched ()
      (Graph.acyclicBehind_of_wellFounded wellFounded [Instrument.outputId])
  have emitted :=
    reduces.get?_eq outputBehind (isMeaning _ _ outputFound)
  have outputIsFirst :
      definition.loaded.findKind? InstrumentUnit.outputKind = some Instrument.outputId := rfl
  simp only [Instrument.compile?, Instrument.emissions, outputIsFirst, emitted, outputMeans,
    Option.bind_eq_bind, Option.bind_some]
  cases Document.resolve? (definition.documents none) <;> rfl

end Definition

end SynthGraph
