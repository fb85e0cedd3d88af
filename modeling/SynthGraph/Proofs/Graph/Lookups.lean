import SynthGraph.Proofs.Graph.Precedence

namespace SynthGraph.Graph

/-!
# Looking patches up at an input

A lookup takes every patch that has an end at a socket, whichever end it is.  At an
input this finds what leads there and nothing else, in patch order, with the
sources at the far ends (`WellPatched.answersAt`).  The modules found are all
different, and where the module itself is compiled all of them have a rank.
-/

variable {U : Type} {graph : Graph U} {endpoint : Endpoint}

/-- What lookups at a socket answer if patches do nothing but lead there. -/
structure AnswersAt (graph : Graph U) (endpoint : Endpoint) : Prop where
  /-- The patches found are those that lead to the socket, in their order. -/
  patchesAt_eq : graph.patchesAt endpoint = graph.patches.filter (·.target = endpoint)
  /-- Seen from the socket, their far ends are their sources. -/
  opposite_eq : ∀ patch ∈ graph.patchesAt endpoint, patch.opposite? endpoint = some patch.source
  isConnected_iff :
    graph.isConnected endpoint ↔ ∃ patch ∈ graph.patches, patch.target = endpoint
  /-- The modules found are those of the sources, and each is found once. -/
  producersAt_eq :
    graph.producersAt endpoint = (graph.patchesAt endpoint).map (·.source.module)
  producersAt_nodup : (graph.producersAt endpoint).Nodup
  /-- A walk that finds the module finds its producers. -/
  discovered :
    ∀ sinks, endpoint.module ∈ graph.discover sinks →
      ∀ producer ∈ graph.producersAt endpoint, producer ∈ graph.discover sinks
  /-- When the module is compiled, its producers have ranks, by which they are ordered. -/
  ranked :
    ∀ sinks, endpoint.module ∈ (graph.schedule sinks).emission →
      ∀ producer ∈ graph.producersAt endpoint,
        ∃ rank, (graph.schedule sinks).rank? producer = some rank
  sorted :
    ∀ sinks, endpoint.module ∈ (graph.schedule sinks).emission →
      ∃ ranks : List Nat,
        (byRank (graph.schedule sinks) (graph.producersAt endpoint)).map
            (graph.schedule sinks).rank? =
          ranks.map some ∧
          ranks.Pairwise (· < ·)

/-- Seen from where it leads, a patch that starts elsewhere comes from its source. -/
theorem opposite?_of_target
    {patch : Patch}
    (isTarget : patch.target = endpoint)
    (notSource : patch.source ≠ endpoint) :
    patch.opposite? endpoint = some patch.source := by
  rw [Patch.opposite?, if_neg notSource, if_pos isTarget]

/-- A socket is connected if there is a patch at it. -/
theorem isConnected_iff_exists_mem :
    graph.isConnected endpoint ↔ ∃ patch, patch ∈ graph.patchesAt endpoint := by
  simp [isConnected, patchesAt]

/-- Whatever is discovered has a rank. -/
theorem exists_rank
    {sinks : List ModuleId}
    {id : ModuleId}
    (isDiscovered : id ∈ graph.discover sinks) :
    ∃ rank, (graph.schedule sinks).rank? id = some rank :=
  Option.isSome_iff_exists.mp (List.isSome_idxOf?.mpr isDiscovered)

variable [UnitLike U]

/-- At an input of a well patched graph, lookups answer as they should. -/
theorem WellPatched.answersAt
    [LawfulUnit U]
    (wellPatched : graph.WellPatched)
    {signal : Signal}
    (isInput : graph.HasSocket endpoint .input signal) :
    graph.AnswersAt endpoint := by
  have patchesAt_eq := patchesAt_of_input wellPatched isInput
  have producersAt_eq := producersAt_of_input wellPatched isInput
  have discovered (sinks : List ModuleId) (isDiscovered : endpoint.module ∈ graph.discover sinks) :
      ∀ producer ∈ graph.producersAt endpoint, producer ∈ graph.discover sinks := by
    intro producer isProducer
    rw [producersAt_eq] at isProducer
    exact discover_closed isDiscovered (feeds_of_mem_producersInto isProducer)
  have isDiscovered {sinks : List ModuleId}
      (isCompiled : endpoint.module ∈ (graph.schedule sinks).emission) :
      endpoint.module ∈ graph.discover sinks :=
    mem_discover.mpr (mem_emission.mp isCompiled)
  constructor
  case patchesAt_eq =>
    exact patchesAt_eq
  case opposite_eq =>
    intro patch isFound
    rw [patchesAt_eq, List.mem_filter, decide_eq_true_eq] at isFound
    exact opposite?_of_target isFound.2 (wellPatched.source_ne_input isInput isFound.1)
  case isConnected_iff =>
    rw [isConnected_iff_exists_mem, patchesAt_eq]
    simp
  case producersAt_eq =>
    rw [producersAt_eq, producersInto, patchesAt_eq]
  case producersAt_nodup =>
    rw [producersAt_eq]
    exact nodup_producersInto wellPatched endpoint
  case discovered =>
    exact discovered
  case ranked =>
    intro sinks isCompiled producer isProducer
    exact exists_rank (discovered sinks (isDiscovered isCompiled) producer isProducer)
  case sorted =>
    intro sinks isCompiled
    rw [byRank_producersAt wellPatched isInput (isDiscovered isCompiled)]
    exact exists_ranks_filter graph sinks _

/-- Lookups answer as they should at the inputs of all modules that are there. -/
def AnswersAtInputs (graph : Graph U) : Prop :=
  ∀ id unit, graph.unit? id = some unit →
    ∀ socket ∈ UnitLike.inputs unit, graph.AnswersAt ⟨id, socket.name⟩

theorem WellPatched.answersAtInputs
    [LawfulUnit U]
    (wellPatched : graph.WellPatched) :
    graph.AnswersAtInputs :=
  fun _ _ found _ isInput => wellPatched.answersAt (hasSocket_of_mem_inputs found isInput)

/-- In every graph that operations build from either catalog, inputs see their own patches. -/
theorem catalogs_answerAtInputs :
    (∀ operations : List (Operation InstrumentUnit), (empty.run operations).AnswersAtInputs) ∧
      ∀ operations : List (Operation SequenceUnit), (empty.run operations).AnswersAtInputs :=
  ⟨fun operations => (wellPatched_run operations).answersAtInputs,
    fun operations => (wellPatched_run operations).answersAtInputs⟩

/-- A transpose that feeds itself and a sine: `FREQ` is the output of one, an input of the other. -/
example :
    let graph : Graph InstrumentUnit :=
      empty.run
        [.add (.transpose Transpose.dials) .origin,
          .add (.ofWaveform .sine) .origin,
          .connect ⟨0, "FREQ IN"⟩ ⟨0, "FREQ"⟩,
          .connect ⟨0, "FREQ"⟩ ⟨1, "FREQ"⟩]
    graph.producersAt ⟨0, "FREQ IN"⟩ = [0] ∧
      graph.producersAt ⟨1, "FREQ"⟩ = [0] ∧
      graph.producersAt ⟨0, "FREQ"⟩ = [0, 1] := by
  decide +kernel

end SynthGraph.Graph
