import SynthGraph.Proofs.Graph.Numbering
import SynthGraph.Graph.Reduction

namespace SynthGraph

/-!
# Other numbers for modules

What a graph compiles to does not depend on the numbers of its modules.  With
other numbers, no two of them equal, the modules are discovered and compiled in
the same order, on cycles too, and they emit the same (`Graph.reduce_renumber`).
-/

/-- An end of a patch after its module gets another number. -/
def Endpoint.renumber (number : ModuleId → ModuleId) (endpoint : Endpoint) : Endpoint :=
  { endpoint with module := number endpoint.module }

/-- A patch after modules get other numbers. -/
def Patch.renumber (number : ModuleId → ModuleId) (patch : Patch) : Patch :=
  { patch with
    source := patch.source.renumber number
    target := patch.target.renumber number }

/-- Emissions after modules get other numbers. -/
def Emissions.renumber (number : ModuleId → ModuleId) (emissions : Emissions) : Emissions :=
  emissions.map fun emission => (number emission.1, emission.2)

section Injective

variable {number : ModuleId → ModuleId} (injective : Function.Injective number)

include injective

theorem Endpoint.renumber_inj
    {first second : Endpoint} :
    first.renumber number = second.renumber number ↔ first = second := by
  cases first
  cases second
  simp [Endpoint.renumber, injective.eq_iff]

theorem Patch.joinsSame_renumber
    (patch other : Patch) :
    (patch.renumber number).joinsSame (other.renumber number) = patch.joinsSame other := by
  simp only [Patch.renumber, Patch.joinsSame, Endpoint.renumber_inj injective]

theorem Emissions.get?_renumber
    (emissions : Emissions)
    (id : ModuleId) :
    (emissions.renumber number).get? (number id) = emissions.get? id := by
  simp only [Emissions.get?, Emissions.renumber, List.find?_map, Option.map_map,
    Function.comp_def, injective.eq_iff]

end Injective

namespace Graph

variable {U : Type}

/-- The graph after modules get other numbers. -/
def renumber
    (number : ModuleId → ModuleId)
    (next : ModuleId)
    (graph : Graph U) :
    Graph U :=
  { modules := graph.modules.map fun module => { module with id := number module.id }
    patches := graph.patches.map (·.renumber number)
    nextId := next }

/-- Modules that are selected by their units are the same modules. -/
theorem ids_filter_renumber
    (selects : U → Bool)
    (number : ModuleId → ModuleId)
    (next : ModuleId)
    (graph : Graph U) :
    ((graph.renumber number next).modules.filter (selects ·.unit)).map Module.id =
      ((graph.modules.filter (selects ·.unit)).map Module.id).map number := by
  simp [renumber, List.filter_map, Function.comp_def]

theorem findKind?_renumber
    [UnitLike U]
    (kind : String)
    (number : ModuleId → ModuleId)
    (next : ModuleId)
    (graph : Graph U) :
    (graph.renumber number next).findKind? kind = (graph.findKind? kind).map number := by
  have ids := ids_filter_renumber (fun unit => UnitLike.kind unit = kind) number next graph
  rw [findKind?, modulesOfKind, ids, List.head?_map]
  rfl

variable {number : ModuleId → ModuleId} (injective : Function.Injective number)

include injective

section Lists

theorem idxOf?_map
    (ids : List ModuleId)
    (id : ModuleId) :
    (ids.map number).idxOf? (number id) = ids.idxOf? id := by
  induction ids with
  | nil =>
      rfl
  | cons first rest inductionHypothesis =>
      simp only [List.map_cons, List.idxOf?_cons, inductionHypothesis, beq_iff_eq,
        injective.eq_iff]

theorem unseen_map
    (seen candidates : List ModuleId) :
    unseen (seen.map number) (candidates.map number) = (unseen seen candidates).map number := by
  induction candidates generalizing seen with
  | nil =>
      rfl
  | cons first rest inductionHypothesis =>
      have extended := inductionHypothesis (seen ++ [first])
      rw [List.map_append] at extended
      by_cases known : first ∈ seen
      · simpa [unseen, known, List.mem_map_of_injective injective] using inductionHypothesis seen
      · simpa [unseen, known, List.mem_map_of_injective injective] using extended

end Lists

variable (next : ModuleId) (graph : Graph U)

theorem module?_renumber
    (id : ModuleId) :
    (graph.renumber number next).module? (number id) =
      (graph.module? id).map fun module => { module with id := number module.id } := by
  simp only [module?, renumber, List.find?_map]
  congr 2
  funext module
  simp [injective.eq_iff]

theorem unit?_renumber
    (id : ModuleId) :
    (graph.renumber number next).unit? (number id) = graph.unit? id := by
  simp only [unit?, module?_renumber injective, Option.map_map]
  rfl

/-- A module stands where it stood. -/
theorem indexOf?_renumber
    (id : ModuleId) :
    (graph.renumber number next).indexOf? (number id) = graph.indexOf? id := by
  simp only [indexOf?, renumber, List.findIdx?_map]
  congr 1
  funext module
  simp [injective.eq_iff]

/-- Sockets stay where they are. -/
theorem HasSocket.renumber
    [UnitLike U]
    {graph : Graph U}
    {endpoint : Endpoint}
    {direction : Direction}
    {signal : Signal}
    (present : graph.HasSocket endpoint direction signal) :
    (graph.renumber number next).HasSocket (endpoint.renumber number) direction signal := by
  obtain ⟨unit, found, isSocket⟩ := present
  exact ⟨unit, (unit?_renumber injective next graph endpoint.module).trans found, isSocket⟩

theorem Fits.renumber
    [UnitLike U]
    {graph : Graph U}
    {patch : Patch}
    (fits : graph.Fits patch) :
    (graph.renumber number next).Fits (patch.renumber number) :=
  ⟨fits.1.renumber injective next, fits.2.renumber injective next⟩

section Discovery

theorem feeders_renumber
    (id : ModuleId) :
    (graph.renumber number next).feeders (number id) = (graph.feeders id).map number := by
  have selected (patch : Patch) :
      decide ((patch.renumber number).target.module = number id) =
        decide (patch.target.module = id) := by
    simp [Patch.renumber, Endpoint.renumber, injective.eq_iff]
  simp only [feeders, renumber, List.filter_map, List.map_map, Function.comp_def, selected]
  rfl

/-- The walk takes the same turns under other numbers. -/
theorem walk_renumber
    (visited pending : List ModuleId) :
    (graph.renumber number next).walk (visited.map number) (pending.map number) =
      (graph.walk visited pending).map number := by
  induction visited, pending using walk.induct graph with
  | case1 visited =>
      simp [walk]
  | case2 visited current pending seen inductionHypothesis =>
      have known : visited.map number ++ number current :: pending.map number = seen.map number := by
        simp [seen]
      simp only [List.map_cons]
      rw [walk, walk, ← inductionHypothesis, known, feeders_renumber injective,
        unseen_map injective]
      simp

theorem discover_renumber
    (sinks : List ModuleId) :
    (graph.renumber number next).discover (sinks.map number) =
      (graph.discover sinks).map number := by
  have live :
      (sinks.map number).filter
          (fun sink => ((graph.renumber number next).module? sink).isSome) =
        (sinks.filter fun sink => (graph.module? sink).isSome).map number := by
    simp [List.filter_map, Function.comp_def, module?_renumber injective]
  have start := unseen_map injective [] (sinks.filter fun sink => (graph.module? sink).isSome)
  have walked :=
    walk_renumber injective next graph []
      (unseen [] (sinks.filter fun sink => (graph.module? sink).isSome))
  rw [discover, live]
  rw [List.map_nil] at start walked
  rw [start, walked, discover]

end Discovery

section Schedule

variable (discovery : List ModuleId)

theorem targetRanks_renumber
    (id : ModuleId) :
    (graph.renumber number next).targetRanks (discovery.map number) (number id) =
      graph.targetRanks discovery id := by
  have selected (patch : Patch) :
      decide ((patch.renumber number).source.module = number id) =
        decide (patch.source.module = id) := by
    simp [Patch.renumber, Endpoint.renumber, injective.eq_iff]
  have rank (patch : Patch) :
      (discovery.map number).idxOf? (patch.renumber number).target.module =
        discovery.idxOf? patch.target.module :=
    idxOf?_map injective discovery patch.target.module
  simp only [targetRanks, renumber, List.filter_map, List.filterMap_map, Function.comp_def,
    selected, rank]

theorem waitingFor_renumber
    (id : ModuleId) :
    (graph.renumber number next).waitingFor (discovery.map number) (number id) =
      graph.waitingFor discovery id := by
  simp only [waitingFor, renumber, List.countP_map]
  congr 1
  funext patch
  simp [Patch.renumber, Endpoint.renumber, injective.eq_iff]

theorem orderedRanks_renumber :
    (graph.renumber number next).orderedRanks (discovery.map number) =
      graph.orderedRanks discovery := by
  have sameCountdown :
      (graph.renumber number next).countdown (discovery.map number) =
        graph.countdown discovery := by
    have waiting :
        (discovery.map number).map
            ((graph.renumber number next).waitingFor (discovery.map number)) =
          discovery.map (graph.waitingFor discovery) := by
      simp [waitingFor_renumber injective]
    simp only [countdown, waiting]
  rw [orderedRanks, sameCountdown, orderedRanks]
  congr 1
  funext rank
  rw [List.getElem?_map]
  cases discovery[rank]? with
  | none =>
      rfl
  | some id =>
      exact targetRanks_renumber injective next graph discovery id

theorem schedule_renumber
    (sinks : List ModuleId) :
    (graph.renumber number next).schedule (sinks.map number) =
      ⟨(graph.discover sinks).map number,
        (graph.emissionOrder (graph.discover sinks)).map number⟩ := by
  simp [schedule, discover_renumber injective, emissionOrder, orderedRanks_renumber injective,
    List.map_filterMap]

end Schedule

section Reduction

variable (sinks : List ModuleId)

theorem producersAt_renumber
    (endpoint : Endpoint) :
    (graph.renumber number next).producersAt (endpoint.renumber number) =
      (graph.producersAt endpoint).map number := by
  have touched (patch : Patch) :
      (patch.renumber number).touches (endpoint.renumber number) = patch.touches endpoint := by
    simp [Patch.renumber, Patch.touches, Endpoint.renumber_inj injective]
  have farEnd (patch : Patch) :
      (patch.renumber number).opposite? (endpoint.renumber number) =
        (patch.opposite? endpoint).map (·.renumber number) := by
    simp only [Patch.renumber, Patch.opposite?, Endpoint.renumber_inj injective]
    split
    · rfl
    · split <;> rfl
  simp only [producersAt, patchesAt, renumber, List.filter_map, List.filterMap_map,
    Function.comp_def, touched, farEnd, List.map_filterMap, Option.map_map]
  rfl

theorem byRank_renumber
    (modules : List ModuleId) :
    byRank ((graph.renumber number next).schedule (sinks.map number)) (modules.map number) =
      (byRank (graph.schedule sinks) modules).map number := by
  unfold byRank
  rw [List.map_mergeSort]
  intro first _ second _
  simp only [schedule_renumber injective, Schedule.rank?, idxOf?_map injective, List.length_map]
  rfl

theorem arrivals_renumber
    (emissions : Emissions)
    (endpoint : Endpoint) :
    (graph.renumber number next).arrivals
        ((graph.renumber number next).schedule (sinks.map number))
        (emissions.renumber number) (endpoint.renumber number) =
      graph.arrivals (graph.schedule sinks) emissions endpoint := by
  simp only [arrivals, producersAt_renumber injective, byRank_renumber injective,
    List.filterMap_map, Function.comp_def, Emissions.get?_renumber injective]

variable [UnitLike U] (context : UnitLike.Context U)

theorem emitNext_renumber
    (emissions : Emissions)
    (id : ModuleId) :
    (graph.renumber number next).emitNext context
        ((graph.renumber number next).schedule (sinks.map number))
        (emissions.renumber number) (number id) =
      (graph.emitNext context (graph.schedule sinks) emissions id).renumber number := by
  rw [emitNext, emitNext, unit?_renumber injective]
  cases graph.unit? id with
  | none =>
      rfl
  | some unit =>
      have connected :
          (graph.renumber number next).connections
              ((graph.renumber number next).schedule (sinks.map number))
              (emissions.renumber number) (number id) unit =
            graph.connections (graph.schedule sinks) emissions id unit := by
        have arrived (socket : Socket) :=
          arrivals_renumber injective next graph sinks emissions ⟨id, socket.name⟩
        simp only [Endpoint.renumber] at arrived
        simp only [connections, arrived]
      simp only [connected]
      simp [Emissions.renumber]

/-- Modules emit the same under other numbers, in the same order. -/
theorem reduce_renumber :
    (graph.renumber number next).reduce context (sinks.map number) =
      (graph.reduce context sinks).renumber number := by
  have folded (ids : List ModuleId) (emissions : Emissions) :
      (ids.map number).foldl
          ((graph.renumber number next).emitNext context
            ((graph.renumber number next).schedule (sinks.map number)))
          (emissions.renumber number) =
        (ids.foldl (graph.emitNext context (graph.schedule sinks)) emissions).renumber number := by
    induction ids generalizing emissions with
    | nil =>
        rfl
    | cons id rest inductionHypothesis =>
        rw [List.map_cons, List.foldl_cons, List.foldl_cons, emitNext_renumber injective,
          inductionHypothesis]
  have emission :
      ((graph.renumber number next).schedule (sinks.map number)).emission =
        (graph.schedule sinks).emission.map number := by
    rw [schedule_renumber injective]
    rfl
  simp only [reduce, emission]
  exact folded (graph.schedule sinks).emission []

end Reduction

end Graph

end SynthGraph
