import SynthGraph.Proofs.Graph.CompileOrder

namespace SynthGraph.Graph

/-!
# Compile order with cycles

The modules behind some sinks fall into two parts.  Those that no cycle leads to
are compiled first, each after all its producers; those on a cycle or fed by one
follow, in reverse order of discovery (`schedule_compilesInOrder`).

The countdown lets exactly the first part go: when a rank goes, all its producers
have gone, so what has gone is always closed under producers (`Goes.acc_of_mem`).
-/

variable {U : Type} {graph : Graph U} {discovery : List ModuleId}

/-- Some cycle leads to the module, or the module lies on one. -/
def FedByCycle (graph : Graph U) (id : ModuleId) : Prop :=
  ∃ producer,
    Relation.ReflTransGen graph.Feeds producer id ∧
      Relation.TransGen graph.Feeds producer producer

/-- Endless chains of producers are those that run into a cycle. -/
theorem acc_iff_not_fedByCycle
    {id : ModuleId} :
    Acc graph.Feeds id ↔ ¬ graph.FedByCycle id := by
  constructor
  · intro grounded
    induction grounded with
    | intro id _ inductionHypothesis =>
        rintro ⟨producer, path, cycle⟩
        obtain ⟨last, toLast, feeds⟩ :=
          Relation.TransGen.tail'_iff.mp (cycle.trans_left path)
        exact inductionHypothesis last feeds ⟨producer, toLast, cycle⟩
  · intro free
    exact acc_of_no_cycle fun producer path cycle => free ⟨producer, path, cycle⟩

/-- Only modules go from which no endless chain of producers starts. -/
theorem Goes.acc_of_mem
    (discoveryNodup : discovery.Nodup)
    (closed :
      ∀ producer consumer,
        graph.Feeds producer consumer → consumer ∈ discovery → producer ∈ discovery)
    {gone order : List Nat}
    (goes : graph.Goes discovery gone order)
    (goneGrounded : ∀ rank ∈ gone, ∀ id, discovery[rank]? = some id → Acc graph.Feeds id) :
    ∀ rank ∈ order, ∀ id, discovery[rank]? = some id → Acc graph.Feeds id := by
  induction goes with
  | stop _ =>
      simp
  | @next gone order first _ _ nothingOwed _ _ inductionHypothesis =>
      have firstGrounded : ∀ id, discovery[first]? = some id → Acc graph.Feeds id := by
        intro id atFirst
        refine ⟨id, fun producer feeds => ?_⟩
        obtain ⟨other, atOther⟩ :=
          List.getElem?_of_mem (closed producer id feeds (List.mem_of_getElem? atFirst))
        have hasGone :=
          (unmet_eq_zero_iff discoveryNodup atFirst).mp nothingOwed producer other feeds atOther
        exact goneGrounded other hasGone producer atOther
      have restGrounded := inductionHypothesis (by
        rw [List.forall_mem_append, List.forall_mem_singleton]
        exact ⟨goneGrounded, firstGrounded⟩)
      rw [List.forall_mem_cons]
      exact ⟨firstGrounded, restGrounded⟩

/-- The modules that the countdown lets go are those that no cycle leads to. -/
theorem mem_ordered
    (discoveryNodup : discovery.Nodup)
    (closed :
      ∀ producer consumer,
        graph.Feeds producer consumer → consumer ∈ discovery → producer ∈ discovery)
    {id : ModuleId} :
    id ∈ (graph.orderedRanks discovery).filterMap (discovery[·]?) ↔
      id ∈ discovery ∧ ¬ graph.FedByCycle id := by
  have goes := goes_orderedRanks graph discoveryNodup
  rw [List.mem_filterMap, ← acc_iff_not_fedByCycle]
  constructor
  · rintro ⟨rank, isOrdered, atRank⟩
    have grounded := goes.acc_of_mem discoveryNodup closed (by simp) rank isOrdered id atRank
    exact ⟨List.mem_of_getElem? atRank, grounded⟩
  · rintro ⟨isDiscovered, grounded⟩
    obtain ⟨rank, atRank⟩ := List.getElem?_of_mem isDiscovered
    exact ⟨rank, goes.rank_mem_of_acc discoveryNodup grounded atRank, atRank⟩

/-- The modules that never go stay in reverse order of discovery. -/
theorem emissionOrder_eq_append
    (graph : Graph U)
    (discoveryNodup : discovery.Nodup) :
    let ordered := (graph.orderedRanks discovery).filterMap (discovery[·]?)
    graph.emissionOrder discovery =
      ordered ++ discovery.reverse.filter (· ∉ ordered) := by
  intro ordered
  have isOrdered (rank : Nat) (id : ModuleId) (atRank : discovery[rank]? = some id) :
      id ∈ ordered ↔ rank ∈ graph.orderedRanks discovery := by
    rw [List.mem_filterMap]
    constructor
    · rintro ⟨other, isOrdered, atOther⟩
      have sameRank : other = rank := by
        rw [← idxOf?_eq_some_iff_of_nodup discoveryNodup] at atRank atOther
        exact Option.some.inj (atOther.symm.trans atRank)
      rwa [← sameRank]
    · intro isOrdered
      exact ⟨rank, isOrdered, atRank⟩
  have remaining :
      ((List.range discovery.length).filter (· ∉ graph.orderedRanks discovery)).filterMap
          (discovery[·]?) =
        discovery.filter (· ∉ ordered) := by
    conv_rhs => rw [← filterMap_range_getElem? discovery]
    rw [List.filterMap_filter, List.filter_filterMap]
    apply List.filterMap_congr
    intro rank _
    cases atRank : discovery[rank]? with
    | none =>
        simp
    | some id =>
        simp [isOrdered rank id atRank, Option.filter]
  rw [emissionOrder, List.filterMap_append, List.filter_reverse, List.filterMap_reverse, remaining,
    List.filter_reverse]

/-- How a schedule orders the modules behind some sinks. -/
structure CompilesInOrder
    (graph : Graph U)
    (sinks : List ModuleId)
    (schedule : Schedule) :
    Prop where
  /-- Every discovered module is compiled, and each once. -/
  perm : schedule.emission.Perm schedule.discovery
  nodup : schedule.emission.Nodup
  /--
  First come the modules that no cycle leads to, each after all its producers;
  then come the others, against the order of discovery.
  -/
  parts :
    ∃ settled,
      schedule.emission = settled ++ schedule.discovery.reverse.filter (· ∉ settled) ∧
        (∀ id, id ∈ settled ↔ id ∈ schedule.discovery ∧ ¬ graph.FedByCycle id) ∧
        ∀ patch ∈ graph.patches,
          patch.source.module ∈ schedule.discovery →
            patch.target.module ∈ settled →
              settled.idxOf patch.source.module < settled.idxOf patch.target.module
  /-- Without cycles producers come before all that they feed. -/
  producers_first :
    graph.AcyclicBehind sinks →
      ∀ patch ∈ graph.patches,
        patch.source.module ∈ schedule.discovery →
          patch.target.module ∈ schedule.discovery →
            schedule.emission.idxOf patch.source.module <
              schedule.emission.idxOf patch.target.module
  /-- The only sink that is there comes last, with cycles or without. -/
  sink_last :
    ∀ sink,
      (∀ id, (id ∈ sinks ∧ (graph.module? id).isSome) ↔ id = sink) →
        schedule.emission.getLast? = some sink

section Schedule

variable {sinks : List ModuleId}

/-- The modules that no cycle leads to, in the order in which they are compiled. -/
def settled (graph : Graph U) (sinks : List ModuleId) : List ModuleId :=
  (graph.orderedRanks (graph.discover sinks)).filterMap ((graph.discover sinks)[·]?)

theorem mem_settled
    {id : ModuleId} :
    id ∈ graph.settled sinks ↔ id ∈ graph.discover sinks ∧ ¬ graph.FedByCycle id :=
  mem_ordered (nodup_discover graph sinks) fun _ _ feeds member => discover_closed member feeds

theorem emission_eq_append
    (graph : Graph U)
    (sinks : List ModuleId) :
    (graph.schedule sinks).emission =
      graph.settled sinks ++ (graph.discover sinks).reverse.filter (· ∉ graph.settled sinks) :=
  emissionOrder_eq_append graph (nodup_discover graph sinks)

theorem nodup_emission
    (graph : Graph U)
    (sinks : List ModuleId) :
    (graph.schedule sinks).emission.Nodup :=
  (perm_emissionOrder (nodup_discover graph sinks)).nodup_iff.mpr (nodup_discover graph sinks)

theorem nodup_settled
    (graph : Graph U)
    (sinks : List ModuleId) :
    (graph.settled sinks).Nodup := by
  have whole := nodup_emission graph sinks
  rw [emission_eq_append] at whole
  exact (List.nodup_append.mp whole).1

theorem settled_idxOf_lt
    {producer consumer : ModuleId}
    (feeds : graph.Feeds producer consumer)
    (isSettled : consumer ∈ graph.settled sinks) :
    (graph.settled sinks).idxOf producer < (graph.settled sinks).idxOf consumer := by
  have isDiscovered := discover_closed (mem_settled.mp isSettled).1 feeds
  have settledNodup := nodup_settled graph sinks
  obtain ⟨before, after, splits⟩ := List.append_of_mem isSettled
  have isBefore :=
    ordered_before (nodup_discover graph sinks) splits feeds isDiscovered
  rw [splits] at settledNodup ⊢
  have consumerNew : consumer ∉ before := fun again =>
    (List.nodup_append.mp settledNodup).2.2 consumer again consumer List.mem_cons_self rfl
  rw [List.idxOf_append_of_mem isBefore, List.idxOf_append_of_notMem consumerNew]
  exact Nat.lt_add_right _ (List.idxOf_lt_length_of_mem isBefore)

/-- If no cycle leads to any discovered module, all of them are settled. -/
theorem emission_eq_settled
    (free : ∀ id ∈ graph.discover sinks, ¬ graph.FedByCycle id) :
    (graph.schedule sinks).emission = graph.settled sinks := by
  have noneLeft :
      (graph.discover sinks).reverse.filter (· ∉ graph.settled sinks) = [] := by
    rw [List.filter_eq_nil_iff]
    intro id member
    have isDiscovered := List.mem_reverse.mp member
    simp [mem_settled, isDiscovered, free id isDiscovered]
  rw [emission_eq_append, noneLeft, List.append_nil]

/-- A walk from one sink starts there. -/
theorem discover_eq_cons
    {sink : ModuleId}
    (only : ∀ id, (id ∈ sinks ∧ (graph.module? id).isSome) ↔ id = sink) :
    ∃ rest, graph.discover sinks = sink :: rest := by
  have alone : graph.liveSinks sinks = [sink] := by
    have startNodup : (graph.liveSinks sinks).Nodup :=
      @nodup_append_unseen [] _ List.nodup_nil
    apply List.perm_singleton.mp
    rw [List.perm_ext_iff_of_nodup startNodup (List.nodup_singleton sink)]
    intro id
    rw [mem_liveSinks, only, List.mem_singleton]
  have walking := walking_discover graph sinks
  obtain ⟨rest, whole⟩ := walking.start_prefix
  rw [alone, List.append_nil, List.singleton_append] at whole
  exact ⟨rest, whole.symm⟩

/-- Among settled modules a sink on which all others depend comes last. -/
theorem getLast?_settled
    {sink : ModuleId}
    (isSettled : sink ∈ graph.settled sinks)
    (leads : ∀ id ∈ graph.settled sinks, Relation.ReflTransGen graph.Feeds id sink) :
    (graph.settled sinks).getLast? = some sink := by
  have nonempty : graph.settled sinks ≠ [] := List.ne_nil_of_mem isSettled
  have whole := List.dropLast_append_getLast nonempty
  rw [List.getLast?_eq_some_getLast nonempty]
  generalize (graph.settled sinks).getLast nonempty = last at whole
  have lastSettled : last ∈ graph.settled sinks := by
    rw [← whole]
    exact List.mem_append_right _ (List.mem_singleton_self last)
  rcases (leads last lastSettled).cases_head with rfl | ⟨consumer, feeds, later⟩
  · rfl
  · -- What the last module feeds would have to come after it.
    have consumerSettled : consumer ∈ graph.settled sinks := by
      obtain ⟨sinkDiscovered, free⟩ := mem_settled.mp isSettled
      obtain ⟨other, isSink, isThere, path⟩ := mem_discover.mp sinkDiscovered
      refine mem_settled.mpr ⟨mem_discover.mpr ⟨other, isSink, isThere, later.trans path⟩, ?_⟩
      rintro ⟨producer, toConsumer, cycle⟩
      exact free ⟨producer, toConsumer.trans later, cycle⟩
    have settledNodup := nodup_settled graph sinks
    have after := settled_idxOf_lt feeds consumerSettled
    have inside := List.idxOf_lt_length_of_mem consumerSettled
    rw [← whole] at settledNodup after inside
    have lastNew : last ∉ (graph.settled sinks).dropLast :=
      (List.nodup_cons.mp (List.nodup_append_comm.mp settledNodup)).1
    rw [List.idxOf_append_of_notMem lastNew, List.idxOf_cons_self] at after
    simp only [List.length_append, List.length_singleton] at inside
    omega

theorem getLast?_emission
    {sink : ModuleId}
    (only : ∀ id, (id ∈ sinks ∧ (graph.module? id).isSome) ↔ id = sink) :
    (graph.schedule sinks).emission.getLast? = some sink := by
  have leads : ∀ id ∈ graph.discover sinks, Relation.ReflTransGen graph.Feeds id sink := by
    intro id found
    obtain ⟨other, isSink, isThere, path⟩ := mem_discover.mp found
    obtain rfl := (only other).mp ⟨isSink, isThere⟩
    exact path
  obtain ⟨rest, discovery⟩ := discover_eq_cons only
  by_cases fed : graph.FedByCycle sink
  · have notSettled : sink ∉ graph.settled sinks := fun isSettled =>
      (mem_settled.mp isSettled).2 fed
    rw [emission_eq_append, discovery, List.reverse_cons, List.filter_append]
    simp [notSettled]
  · have free : ∀ id ∈ graph.discover sinks, ¬ graph.FedByCycle id := by
      rintro id found ⟨producer, path, cycle⟩
      exact fed ⟨producer, path.trans (leads id found), cycle⟩
    have sinkDiscovered : sink ∈ graph.discover sinks := by
      rw [discovery]
      exact List.mem_cons_self
    rw [emission_eq_settled free]
    apply getLast?_settled (mem_settled.mpr ⟨sinkDiscovered, fed⟩)
    intro id isSettled
    exact leads id (mem_settled.mp isSettled).1

end Schedule

/-- Every schedule compiles the modules behind its sinks in order. -/
theorem schedule_compilesInOrder
    (graph : Graph U)
    (sinks : List ModuleId) :
    graph.CompilesInOrder sinks (graph.schedule sinks) where
  perm := perm_emissionOrder (nodup_discover graph sinks)
  nodup := nodup_emission graph sinks
  parts := by
    refine ⟨graph.settled sinks, emission_eq_append graph sinks, fun _ => mem_settled, ?_⟩
    intro patch member _ isSettled
    exact settled_idxOf_lt ⟨patch, member, rfl, rfl⟩ isSettled
  producers_first := by
    intro acyclic patch member _ isDiscovered
    have free : ∀ id ∈ graph.discover sinks, ¬ graph.FedByCycle id := by
      intro id found
      exact acc_iff_not_fedByCycle.mp (acyclic.acc (mem_discover.mp found))
    rw [emission_eq_settled free]
    exact settled_idxOf_lt ⟨patch, member, rfl, rfl⟩
      (mem_settled.mpr ⟨isDiscovered, free _ isDiscovered⟩)
  sink_last := fun _ => getLast?_emission

/-- A sine is settled, while a filter that feeds itself leads to the output. -/
example :
    let operations : List (Operation InstrumentUnit) :=
      [.add .output .origin,
        .add (.ofMode .lowPass) .origin,
        .add (.ofWaveform .sine) .origin,
        .connect ⟨2, "OUT"⟩ ⟨1, "IN"⟩,
        .connect ⟨1, "OUT"⟩ ⟨1, "IN"⟩,
        .connect ⟨1, "OUT"⟩ ⟨0, "IN"⟩]
    (empty.run operations).schedule [0] = ⟨[0, 1, 2], [2, 1, 0]⟩ := by
  decide +kernel

end SynthGraph.Graph
