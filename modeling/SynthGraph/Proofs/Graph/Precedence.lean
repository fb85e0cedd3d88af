import SynthGraph.Proofs.Graph.Carrying
import SynthGraph.Proofs.Graph.Cycles

namespace SynthGraph.Graph

/-!
# What is compiled before a module

On cycles a module may be compiled before what is patched into it.  A producer
comes too late only if a cycle leads to it and the walk found it before its
consumer (`mem_before_iff`).  What comes in time arrives, in order of discovery
(`get_connections_of_step`).
-/

section Schedule

variable {U : Type} {graph : Graph U} {sinks : List ModuleId}

/-- What a cycle leads to passes it on to what it feeds. -/
theorem FedByCycle.of_feeds
    {producer consumer : ModuleId}
    (fed : graph.FedByCycle producer)
    (feeds : graph.Feeds producer consumer) :
    graph.FedByCycle consumer := by
  obtain ⟨start, path, cycle⟩ := fed
  exact ⟨start, path.tail feeds, cycle⟩

/-- Modules taken from the walk have increasing ranks. -/
theorem exists_ranks_filter
    (graph : Graph U)
    (sinks : List ModuleId)
    (keep : ModuleId → Bool) :
    ∃ ranks : List Nat,
      ((graph.discover sinks).filter keep).map (graph.schedule sinks).rank? = ranks.map some ∧
        ranks.Pairwise (· < ·) := by
  have increasing := (pairwise_rank (nodup_discover graph sinks) 0).filter keep
  refine ⟨_, ?_, List.pairwise_map.mpr increasing⟩
  rw [List.map_map]
  apply List.map_congr_left
  intro id member
  have isRanked := List.isSome_idxOf?.mpr (List.mem_of_mem_filter member)
  obtain ⟨rank, isRank⟩ := Option.isSome_iff_exists.mp isRanked
  simp [schedule, Schedule.rank?, isRank]

/-- The modules that cycles lead to are compiled against the order of discovery. -/
theorem pairwise_unsettled
    (graph : Graph U)
    (sinks : List ModuleId) :
    ((graph.discover sinks).reverse.filter (· ∉ graph.settled sinks)).Pairwise
      fun first second =>
        (graph.discover sinks).idxOf second < (graph.discover sinks).idxOf first := by
  have increasing := pairwise_idxOf (nodup_discover graph sinks)
  exact (List.pairwise_reverse.mpr increasing).filter _

section Split

variable
  {before after : List ModuleId}
  {producer consumer : ModuleId}
  (splits : (graph.schedule sinks).emission = before ++ consumer :: after)

include splits

/-- Before a module that no cycle leads to, all its producers are compiled. -/
theorem mem_before_of_settled
    (feeds : graph.Feeds producer consumer)
    (isSettled : consumer ∈ graph.settled sinks) :
    producer ∈ before := by
  have emissionNodup := nodup_emission graph sinks
  have producerSettled : producer ∈ graph.settled sinks := by
    obtain ⟨isDiscovered, free⟩ := mem_settled.mp isSettled
    exact mem_settled.mpr ⟨discover_closed isDiscovered feeds, fun fed => free (fed.of_feeds feeds)⟩
  have earlier :
      (graph.schedule sinks).emission.idxOf producer <
        (graph.schedule sinks).emission.idxOf consumer := by
    rw [emission_eq_append, List.idxOf_append_of_mem producerSettled,
      List.idxOf_append_of_mem isSettled]
    exact settled_idxOf_lt feeds isSettled
  rw [splits] at earlier emissionNodup
  have consumerNew : consumer ∉ before := fun again =>
    (List.nodup_append.mp emissionNodup).2.2 consumer again consumer List.mem_cons_self rfl
  by_contra late
  rw [List.idxOf_append_of_notMem consumerNew, List.idxOf_append_of_notMem late,
    List.idxOf_cons_self] at earlier
  omega

/-- Before a module that a cycle leads to, all modules are compiled that no cycle leads to. -/
theorem exists_before_of_notMem_settled
    (notSettled : consumer ∉ graph.settled sinks) :
    ∃ between,
      before = graph.settled sinks ++ between ∧
        (graph.discover sinks).reverse.filter (· ∉ graph.settled sinks) =
          between ++ consumer :: after := by
  rw [emission_eq_append, List.append_eq_append_iff] at splits
  rcases splits with ⟨between, isBefore, isRest⟩ | ⟨between, isSettled, isRest⟩
  · exact ⟨between, isBefore, isRest⟩
  · cases between with
    | nil =>
        rw [List.append_nil] at isSettled
        exact ⟨[], by simp [isSettled], by simpa using isRest.symm⟩
    | cons other between =>
        obtain ⟨rfl, _⟩ := List.cons.inj isRest
        rw [isSettled] at notSettled
        exact absurd (by simp) notSettled

/--
A producer is compiled before its consumer, unless a cycle leads to the producer
and the walk did not find the consumer first.
-/
theorem mem_before_iff
    (feeds : graph.Feeds producer consumer) :
    producer ∈ before ↔
      (graph.FedByCycle producer →
        (graph.discover sinks).idxOf consumer < (graph.discover sinks).idxOf producer) := by
  have consumerDiscovered : consumer ∈ graph.discover sinks := by
    rw [mem_discover, ← mem_emission, splits]
    exact List.mem_append_right _ List.mem_cons_self
  have producerDiscovered := discover_closed consumerDiscovered feeds
  by_cases isSettled : consumer ∈ graph.settled sinks
  · have free := (mem_settled.mp isSettled).2
    exact ⟨fun _ fed => absurd (fed.of_feeds feeds) free,
      fun _ => mem_before_of_settled splits feeds isSettled⟩
  · obtain ⟨between, rfl, isRest⟩ := exists_before_of_notMem_settled splits isSettled
    by_cases fed : graph.FedByCycle producer
    · have producerUnsettled : producer ∉ graph.settled sinks := fun producerSettled =>
        (mem_settled.mp producerSettled).2 fed
      have inRest : producer ∈ between ++ consumer :: after := by
        rw [← isRest]
        simp [producerDiscovered, producerUnsettled]
      have decreasing := pairwise_unsettled graph sinks
      rw [isRest, List.pairwise_append, List.pairwise_cons] at decreasing
      obtain ⟨_, ⟨afterLower, _⟩, betweenHigher⟩ := decreasing
      rw [List.mem_append, or_iff_right producerUnsettled, imp_iff_right fed]
      constructor
      · intro isBetween
        exact betweenHigher producer isBetween consumer List.mem_cons_self
      · intro higher
        rcases List.mem_append.mp inRest with isBetween | isConsumer | ⟨_, isAfter⟩
        · exact isBetween
        · omega
        · have := afterLower producer isAfter
          omega
    · exact ⟨fun _ isFed => absurd isFed fed,
        fun _ => List.mem_append_left _ (mem_settled.mpr ⟨producerDiscovered, fed⟩)⟩

end Split

end Schedule

/-- The discovered producers at a socket of a discovered module are all its producers. -/
theorem mem_discovered_producers
    {U : Type}
    {graph : Graph U}
    {sinks : List ModuleId}
    {endpoint : Endpoint}
    (isDiscovered : endpoint.module ∈ graph.discover sinks)
    {producer : ModuleId} :
    producer ∈ (graph.discover sinks).filter (· ∈ graph.producersInto endpoint) ↔
      producer ∈ graph.producersInto endpoint := by
  rw [List.mem_filter, decide_eq_true_eq]
  exact and_iff_right_of_imp fun isProducer =>
    discover_closed isDiscovered (feeds_of_mem_producersInto isProducer)

section Steps

variable
  {U : Type} [UnitLike U]
  {graph : Graph U}
  {context : UnitLike.Context U}
  {sinks : List ModuleId}
  {before after : Emissions}
  {id : ModuleId}
  {emission : Emission}
  (splits : graph.reduce context sinks = before ++ (id, emission) :: after)

include splits

/-- What was emitted before a step is what is found in the end. -/
theorem get?_before_of_step
    {producer : ModuleId}
    (isBefore : producer ∈ before.map Prod.fst) :
    before.get? producer = (graph.reduce context sinks).get? producer := by
  obtain ⟨found, isFound, _⟩ := Emissions.get?_of_mem isBefore
  obtain ⟨step, isStep, rfl⟩ := Option.map_eq_some_iff.mp isFound
  rw [splits, Emissions.get?, Emissions.get?, List.find?_append, isStep]
  rfl

variable (wellPatched : graph.WellPatched)

include wellPatched

/-- What a step emits is found in the end. -/
theorem get?_of_step : (graph.reduce context sinks).get? id = some emission := by
  have new : ∀ step ∈ before, step.1 ≠ id := by
    have emissionNodup := nodup_emission graph sinks
    rw [← map_fst_reduce wellPatched context sinks, splits, List.map_append,
      List.nodup_append] at emissionNodup
    intro step member
    exact emissionNodup.2.2 step.1 (List.mem_map_of_mem member) id List.mem_cons_self
  have notBefore : before.find? (·.1 = id) = none := by
    simpa using new
  rw [splits, Emissions.get?, List.find?_append, notBefore]
  simp

/-- At an input arrives what its producers emitted that were compiled before, as discovered. -/
theorem get_connections_of_step
    [LawfulUnit U]
    {unit : U}
    (found : graph.unit? id = some unit)
    {socket : Socket}
    (isInput : socket ∈ UnitLike.inputs unit) :
    (graph.connections (graph.schedule sinks) before id unit).get socket.name =
      ((graph.discover sinks).filter (· ∈ graph.producersInto ⟨id, socket.name⟩)).filterMap
        before.get? := by
  have isDiscovered : id ∈ graph.discover sinks := mem_discover.mpr (reduce_step splits).1
  rw [connections_eq_ofSockets, Connections.get_ofSockets _ isInput, arrivals,
    byRank_producersAt wellPatched (hasSocket_of_mem_inputs found isInput) isDiscovered]

/-- A socket counts as connected if what some patch brings there was compiled before. -/
theorem isConnected_of_step_iff
    [LawfulUnit U]
    {unit : U}
    (found : graph.unit? id = some unit)
    {socket : Socket}
    (isInput : socket ∈ UnitLike.inputs unit) :
    (graph.connections (graph.schedule sinks) before id unit).isConnected socket.name ↔
      ∃ patch ∈ graph.patchesAt ⟨id, socket.name⟩,
        graph.FedByCycle patch.source.module →
          (graph.discover sinks).idxOf id < (graph.discover sinks).idxOf patch.source.module := by
  have order :
      (graph.schedule sinks).emission = before.map Prod.fst ++ id :: after.map Prod.fst := by
    rw [← map_fst_reduce wellPatched context sinks, splits, List.map_append, List.map_cons]
  have isDiscovered : id ∈ graph.discover sinks := mem_discover.mpr (reduce_step splits).1
  have inTime {producer : ModuleId}
      (isProducer : producer ∈ graph.producersInto ⟨id, socket.name⟩) :=
    mem_before_iff order (feeds_of_mem_producersInto isProducer)
  rw [Connections.isConnected, get_connections_of_step splits wellPatched found isInput,
    patchesAt_of_input wellPatched (hasSocket_of_mem_inputs found isInput),
    Bool.not_eq_true', List.isEmpty_eq_false_iff_exists_mem]
  constructor
  · rintro ⟨arrived, arrives⟩
    obtain ⟨producer, member, isEmitted⟩ := List.mem_filterMap.mp arrives
    have isProducer := (mem_discovered_producers isDiscovered).mp member
    have isBefore := List.mem_map_of_mem (f := Prod.fst) (Emissions.mem_of_get? isEmitted)
    obtain ⟨patch, isPatch, rfl⟩ := List.mem_map.mp isProducer
    exact ⟨patch, isPatch, (inTime isProducer).mp isBefore⟩
  · rintro ⟨patch, isPatch, early⟩
    have isProducer : patch.source.module ∈ graph.producersInto ⟨id, socket.name⟩ :=
      List.mem_map_of_mem isPatch
    obtain ⟨arrived, isEmitted, _⟩ := Emissions.get?_of_mem ((inTime isProducer).mpr early)
    exact ⟨arrived, List.mem_filterMap.mpr
      ⟨_, (mem_discovered_producers isDiscovered).mpr isProducer, isEmitted⟩⟩

end Steps

end SynthGraph.Graph
