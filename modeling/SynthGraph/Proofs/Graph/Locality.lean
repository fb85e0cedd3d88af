import SynthGraph.Proofs.Graph.Arrivals

namespace SynthGraph

/-!
# What a reduction reads

A reduction reads the units of the modules behind its sinks and the ends of the
patches that lead to them, and nothing else: two graphs that agree on these
reduce to the same emissions (`Graph.AgreesBehind.reduce_eq`).  Cycles make no
difference.  Patches that leave the part behind the sinks are met in every scan of
the patches, but only their targets are looked up, and they have no rank.
-/

/-- The socket a patch leads from and the socket it leads to. -/
def Patch.ends (patch : Patch) : Endpoint × Endpoint :=
  (patch.source, patch.target)

namespace Graph

variable {U : Type}

instance (graph : Graph U) (sinks : List ModuleId) (id : ModuleId) :
    Decidable (graph.Behind sinks id) :=
  decidable_of_iff (id ∈ graph.discover sinks) mem_discover

/-- The ends of the patches that lead to modules behind the sinks, in patch order. -/
def cables (graph : Graph U) (sinks : List ModuleId) : List (Endpoint × Endpoint) :=
  (graph.patches.filter fun patch => graph.Behind sinks patch.target.module).map Patch.ends

theorem mem_cables
    {graph : Graph U}
    {sinks : List ModuleId}
    {cable : Endpoint × Endpoint} :
    cable ∈ graph.cables sinks ↔
      graph.Behind sinks cable.2.module ∧ ∃ patch ∈ graph.patches, patch.ends = cable := by
  simp only [cables, List.mem_map, List.mem_filter, decide_eq_true_eq]
  constructor
  · rintro ⟨patch, ⟨member, behind⟩, rfl⟩
    exact ⟨behind, patch, member, rfl⟩
  · rintro ⟨behind, patch, member, rfl⟩
    exact ⟨patch, ⟨member, behind⟩, rfl⟩

section Cables

variable (graph : Graph U) (sinks : List ModuleId)

/-- Patches that are selected by their ends, and lead behind the sinks, are cables. -/
theorem filter_cables
    (selects : Endpoint × Endpoint → Bool)
    (within : ∀ cable, selects cable → graph.Behind sinks cable.2.module) :
    (graph.cables sinks).filter selects =
      (graph.patches.filter fun patch => selects patch.ends).map Patch.ends := by
  rw [cables, List.filter_map, List.filter_filter]
  congr 1
  apply List.filter_congr
  intro patch _
  by_cases selected : selects patch.ends
  · have behind : graph.Behind sinks patch.target.module := within patch.ends selected
    simp [selected, behind]
  · simp [selected]

variable {graph sinks}

theorem feeders_eq_cables
    {id : ModuleId}
    (behind : graph.Behind sinks id) :
    graph.feeders id =
      ((graph.cables sinks).filter (·.2.module = id)).map (·.1.module) := by
  have selected := filter_cables graph sinks (·.2.module = id) fun cable isTarget => by
    rw [of_decide_eq_true isTarget]
    exact behind
  rw [selected, List.map_map]
  rfl

theorem producersInto_eq_cables
    {endpoint : Endpoint}
    (behind : graph.Behind sinks endpoint.module) :
    graph.producersInto endpoint =
      ((graph.cables sinks).filter (·.2 = endpoint)).map (·.1.module) := by
  have selected := filter_cables graph sinks (·.2 = endpoint) fun cable isTarget => by
    rw [of_decide_eq_true isTarget]
    exact behind
  rw [selected, List.map_map]
  rfl

theorem waitingFor_eq_cables
    {id : ModuleId}
    (behind : graph.Behind sinks id) :
    graph.waitingFor (graph.discover sinks) id =
      (graph.cables sinks).countP fun cable =>
        cable.2.module = id && cable.1.module ∈ graph.discover sinks := by
  have selected :=
    filter_cables graph sinks
      (fun cable => cable.2.module = id && cable.1.module ∈ graph.discover sinks)
      fun cable isSelected => by
        simp only [Bool.and_eq_true, decide_eq_true_eq] at isSelected
        rw [isSelected.1]
        exact behind
  rw [List.countP_eq_length_filter, selected, List.length_map, ← List.countP_eq_length_filter]
  rfl

/-- Patches that lead elsewhere have targets without a rank. -/
theorem targetRanks_eq_cables
    (graph : Graph U)
    (sinks : List ModuleId)
    (id : ModuleId) :
    graph.targetRanks (graph.discover sinks) id =
      ((graph.cables sinks).filter (·.1.module = id)).filterMap fun cable =>
        (graph.discover sinks).idxOf? cable.2.module := by
  rw [targetRanks, cables, List.filter_map, List.filterMap_map, List.filterMap_filter,
    List.filter_filter, List.filterMap_filter]
  apply List.filterMap_congr
  intro patch _
  by_cases isSource : patch.source.module = id
  · by_cases behind : graph.Behind sinks patch.target.module
    · simp [Patch.ends, isSource, behind]
    · have noRank : (graph.discover sinks).idxOf? patch.target.module = none := by
        rw [List.idxOf?_eq_none_iff]
        exact fun found => behind (mem_discover.mp found)
      simp [Patch.ends, isSource, behind, noRank]
  · simp [Patch.ends, isSource]

end Cables

/-- The walk depends on the feeders of the modules that it visits. -/
theorem walk_congr
    {graph other : Graph U}
    {sinks visited pending : List ModuleId}
    (sameFeeders : ∀ id, graph.Behind sinks id → other.feeders id = graph.feeders id)
    (behind : ∀ id ∈ pending, graph.Behind sinks id) :
    other.walk visited pending = graph.walk visited pending := by
  induction visited, pending using walk.induct graph with
  | case1 visited =>
      rw [walk, walk]
  | case2 visited current pending seen inductionHypothesis =>
      have currentBehind := behind current List.mem_cons_self
      rw [walk, walk, sameFeeders current currentBehind]
      apply inductionHypothesis
      intro id member
      rcases List.mem_append.mp member with isPending | isNew
      · exact behind id (List.mem_cons_of_mem _ isPending)
      · exact currentBehind.of_feeds (mem_feeders.mp (mem_unseen.mp isNew).1)

/-- Two graphs look the same from their sinks. -/
structure AgreesBehind (graph other : Graph U) (sinks : List ModuleId) : Prop where
  /-- The same sinks are there. -/
  live : ∀ sink ∈ sinks, (other.module? sink).isSome = (graph.module? sink).isSome
  /-- Modules behind the sinks have the same units. -/
  units : ∀ id, graph.Behind sinks id → other.unit? id = graph.unit? id
  /-- The same sockets are joined behind the sinks, in the same order. -/
  cables : other.cables sinks = graph.cables sinks

section Agreement

variable {graph other : Graph U} {sinks : List ModuleId}

/-- Where sinks are there, they are there again with their units. -/
theorem same_live_of_units
    (live : ∀ sink ∈ sinks, (graph.module? sink).isSome)
    (units : ∀ id, graph.Behind sinks id → other.unit? id = graph.unit? id) :
    ∀ sink ∈ sinks, (other.module? sink).isSome = (graph.module? sink).isSome := by
  intro sink isSink
  have sameUnit :=
    congrArg Option.isSome (units sink ⟨sink, isSink, live sink isSink, .refl⟩)
  simpa [unit?] using sameUnit

/-- What is behind the sinks is found again where the same sinks and patches are. -/
theorem behind_of_joined
    (live : ∀ sink ∈ sinks, (graph.module? sink).isSome → (other.module? sink).isSome)
    (joined :
      ∀ patch ∈ graph.patches,
        graph.Behind sinks patch.target.module → other.Behind sinks patch.target.module →
          ∃ found ∈ other.patches, found.ends = patch.ends)
    {id : ModuleId}
    (behind : graph.Behind sinks id) :
    other.Behind sinks id := by
  obtain ⟨sink, isSink, isThere, path⟩ := behind
  induction path using Relation.ReflTransGen.head_induction_on with
  | refl =>
      exact ⟨sink, isSink, live sink isSink isThere, .refl⟩
  | head feeds later inductionHypothesis =>
      obtain ⟨patch, member, rfl, rfl⟩ := feeds
      obtain ⟨found, foundMember, sameEnds⟩ :=
        joined patch member ⟨sink, isSink, isThere, later⟩ inductionHypothesis
      simp only [Patch.ends, Prod.mk.injEq] at sameEnds
      exact inductionHypothesis.of_feeds
        ⟨found, foundMember, congrArg Endpoint.module sameEnds.1,
          congrArg Endpoint.module sameEnds.2⟩

/-- Graphs agree behind the sinks of one if they agree on the part that this one sees. -/
theorem AgreesBehind.of_patches
    (live : ∀ sink ∈ sinks, (other.module? sink).isSome = (graph.module? sink).isSome)
    (units : ∀ id, graph.Behind sinks id → other.unit? id = graph.unit? id)
    (patches :
      (other.patches.filter fun patch => graph.Behind sinks patch.target.module).map Patch.ends =
        graph.cables sinks) :
    graph.AgreesBehind other sinks := by
  have sameBehind (id : ModuleId) : other.Behind sinks id ↔ graph.Behind sinks id := by
    constructor
    · apply behind_of_joined
      · intro sink isSink isThere
        rwa [live sink isSink] at isThere
      · intro patch member _ behind
        have isCable : patch.ends ∈ graph.cables sinks := by
          rw [← patches]
          exact List.mem_map_of_mem (List.mem_filter.mpr ⟨member, decide_eq_true behind⟩)
        exact (mem_cables.mp isCable).2
    · apply behind_of_joined
      · intro sink isSink isThere
        rwa [live sink isSink]
      · intro patch member behind _
        have isCable := mem_cables.mpr ⟨behind, patch, member, rfl⟩
        rw [← patches] at isCable
        obtain ⟨found, isFound, sameEnds⟩ := List.mem_map.mp isCable
        exact ⟨found, List.mem_of_mem_filter isFound, sameEnds⟩
  refine ⟨live, units, ?_⟩
  rw [← patches, Graph.cables]
  simp only [sameBehind]

namespace AgreesBehind

variable (agrees : graph.AgreesBehind other sinks)

include agrees

theorem behind_iff
    {id : ModuleId} :
    other.Behind sinks id ↔ graph.Behind sinks id := by
  constructor
  · apply behind_of_joined
    · intro sink isSink isThere
      rwa [agrees.live sink isSink] at isThere
    · intro patch member behind _
      have isCable := mem_cables.mpr ⟨behind, patch, member, rfl⟩
      rw [agrees.cables] at isCable
      exact (mem_cables.mp isCable).2
  · apply behind_of_joined
    · intro sink isSink isThere
      rwa [agrees.live sink isSink]
    · intro patch member behind _
      have isCable := mem_cables.mpr ⟨behind, patch, member, rfl⟩
      rw [← agrees.cables] at isCable
      exact (mem_cables.mp isCable).2

theorem discover_eq : other.discover sinks = graph.discover sinks := by
  have sameLive :
      sinks.filter (fun sink => (other.module? sink).isSome) =
        sinks.filter fun sink => (graph.module? sink).isSome := by
    apply List.filter_congr
    intro sink isSink
    rw [agrees.live sink isSink]
  have sameFeeders (id : ModuleId) (behind : graph.Behind sinks id) :
      other.feeders id = graph.feeders id := by
    rw [feeders_eq_cables (agrees.behind_iff.mpr behind), feeders_eq_cables behind, agrees.cables]
  rw [discover, discover, sameLive]
  apply walk_congr sameFeeders
  intro id member
  obtain ⟨isSink, isThere⟩ := mem_liveSinks.mp member
  exact ⟨id, isSink, isThere, .refl⟩

theorem schedule_eq : other.schedule sinks = graph.schedule sinks := by
  have sameDiscovery := agrees.discover_eq
  have sameWaiting :
      (graph.discover sinks).map (other.waitingFor (graph.discover sinks)) =
        (graph.discover sinks).map (graph.waitingFor (graph.discover sinks)) := by
    apply List.map_congr_left
    intro id member
    have behind := mem_discover.mp member
    have otherWaiting := waitingFor_eq_cables (agrees.behind_iff.mpr behind)
    rw [sameDiscovery, agrees.cables] at otherWaiting
    rw [otherWaiting, waitingFor_eq_cables behind]
  have sameTargets (id : ModuleId) :
      other.targetRanks (graph.discover sinks) id =
        graph.targetRanks (graph.discover sinks) id := by
    have otherTargets := targetRanks_eq_cables other sinks id
    rw [sameDiscovery, agrees.cables] at otherTargets
    rw [otherTargets, targetRanks_eq_cables]
  have sameCountdown :
      other.countdown (graph.discover sinks) = graph.countdown (graph.discover sinks) := by
    simp only [countdown, sameWaiting]
  have sameRanks :
      other.orderedRanks (graph.discover sinks) = graph.orderedRanks (graph.discover sinks) := by
    simp only [orderedRanks, sameCountdown, sameTargets]
  have sameOrder :
      other.emissionOrder (graph.discover sinks) = graph.emissionOrder (graph.discover sinks) := by
    simp only [emissionOrder, sameRanks]
  simp only [schedule, sameDiscovery, sameOrder]

variable [UnitLike U] (wellPatched : graph.WellPatched) (otherWellPatched : other.WellPatched)

include wellPatched otherWellPatched

/-- At an input socket behind the sinks the same emissions arrive. -/
theorem arrivals_eq
    {schedule : Schedule}
    (emissions : Emissions)
    {endpoint : Endpoint}
    {signal : Signal}
    (isInput : graph.HasSocket endpoint .input signal)
    (behind : graph.Behind sinks endpoint.module) :
    other.arrivals schedule emissions endpoint = graph.arrivals schedule emissions endpoint := by
  have otherInput : other.HasSocket endpoint .input signal := by
    apply isInput.of_unit?
    intro unit found
    exact ⟨unit, (agrees.units _ behind).trans found, rfl⟩
  rw [arrivals, arrivals, producersAt_of_input otherWellPatched otherInput,
    producersAt_of_input wellPatched isInput,
    producersInto_eq_cables (agrees.behind_iff.mpr behind), producersInto_eq_cables behind,
    agrees.cables]

variable [LawfulUnit U]

theorem emitNext_eq
    (context : UnitLike.Context U)
    (schedule : Schedule)
    (emissions : Emissions)
    {id : ModuleId}
    (behind : graph.Behind sinks id) :
    other.emitNext context schedule emissions id = graph.emitNext context schedule emissions id := by
  rw [emitNext, emitNext, agrees.units id behind]
  cases found : graph.unit? id with
  | none =>
      rfl
  | some unit =>
      have sameConnections :
          other.connections schedule emissions id unit =
            graph.connections schedule emissions id unit := by
        rw [connections_eq_ofSockets, connections_eq_ofSockets]
        apply Connections.ofSockets_congr
        intro socket member
        exact agrees.arrivals_eq wellPatched otherWellPatched emissions
          (hasSocket_of_mem_inputs found member) behind
      simp only [sameConnections]

/-- Two graphs that look the same from their sinks reduce to the same emissions. -/
theorem reduce_eq
    (context : UnitLike.Context U) :
    other.reduce context sinks = graph.reduce context sinks := by
  rw [reduce, reduce, agrees.schedule_eq]
  apply List.foldl_ext
  intro emissions id isScheduled
  exact agrees.emitNext_eq wellPatched otherWellPatched context _ emissions
    (mem_emission.mp isScheduled)

end AgreesBehind

end Agreement

end Graph

end SynthGraph
