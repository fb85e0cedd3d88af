import SynthGraph.Graph.Reduction
import SynthGraph.Proofs.Graph.CompileOrder

namespace SynthGraph.Graph

/-!
# The producers at a socket

Patches are looked up at either end.  At an input socket of a well patched graph
this finds exactly the patches that lead to the socket, since names tell the
sockets of a unit apart and every patch leads to an input
(`producersAt_of_input`).  No module is patched into a socket twice, because it
gives out one signal at most, and ordering the producers by rank lists them as
they were discovered (`byRank_producersInto`).
-/

variable {U : Type}

/-- The modules that patches lead from to a socket, in patch order. -/
def producersInto (graph : Graph U) (endpoint : Endpoint) : List ModuleId :=
  (graph.patches.filter (·.target = endpoint)).map (·.source.module)

theorem mem_producersInto
    {graph : Graph U}
    {endpoint : Endpoint}
    {producer : ModuleId} :
    producer ∈ graph.producersInto endpoint ↔
      ∃ patch ∈ graph.patches, patch.target = endpoint ∧ patch.source.module = producer := by
  simp [producersInto, and_assoc]

theorem feeds_of_mem_producersInto
    {graph : Graph U}
    {endpoint : Endpoint}
    {producer : ModuleId}
    (member : producer ∈ graph.producersInto endpoint) :
    graph.Feeds producer endpoint.module := by
  obtain ⟨patch, isPatch, rfl, source⟩ := mem_producersInto.mp member
  exact ⟨patch, isPatch, source, rfl⟩

section Ranks

variable {discovery : List ModuleId}

/-- Along a list without repetition ranks increase. -/
theorem pairwise_rank
    (discoveryNodup : discovery.Nodup)
    (absent : Nat) :
    discovery.Pairwise fun first second =>
      (discovery.idxOf? first).getD absent < (discovery.idxOf? second).getD absent := by
  rw [List.pairwise_iff_getElem]
  intro first second firstInside secondInside before
  have firstRank :=
    (idxOf?_eq_some_iff_of_nodup discoveryNodup).mpr (List.getElem?_eq_getElem firstInside)
  have secondRank :=
    (idxOf?_eq_some_iff_of_nodup discoveryNodup).mpr (List.getElem?_eq_getElem secondInside)
  simpa [firstRank, secondRank] using before

/-- Along a list without repetition positions increase. -/
theorem pairwise_idxOf
    (discoveryNodup : discovery.Nodup) :
    discovery.Pairwise fun first second => discovery.idxOf first < discovery.idxOf second := by
  rw [List.pairwise_iff_getElem]
  intro first second firstInside secondInside before
  rwa [discoveryNodup.idxOf_getElem, discoveryNodup.idxOf_getElem]

theorem pairwise_byRank
    (schedule : Schedule)
    (modules : List ModuleId) :
    (byRank schedule modules).Pairwise fun first second =>
      (schedule.rank? first).getD schedule.discovery.length ≤
        (schedule.rank? second).getD schedule.discovery.length := by
  unfold byRank
  refine (List.pairwise_mergeSort ?_ ?_ modules).imp ?_
  · intro first second third
    simpa using Nat.le_trans
  · intro first second
    simpa using Nat.le_total _ _
  · intro first second
    simp

/-- Discovered modules in order of their ranks are in discovery order. -/
theorem byRank_eq_filter
    {schedule : Schedule}
    {modules : List ModuleId}
    (discoveryNodup : schedule.discovery.Nodup)
    (modulesNodup : modules.Nodup)
    (areDiscovered : ∀ id ∈ modules, id ∈ schedule.discovery) :
    byRank schedule modules = schedule.discovery.filter (· ∈ modules) := by
  have increasing :=
    (pairwise_rank discoveryNodup schedule.discovery.length).filter (· ∈ modules)
  have same : (byRank schedule modules).Perm (schedule.discovery.filter (· ∈ modules)) := by
    refine (List.mergeSort_perm _ _).trans ?_
    rw [List.perm_ext_iff_of_nodup modulesNodup (discoveryNodup.filter _)]
    intro id
    simp only [List.mem_filter, decide_eq_true_eq]
    exact ⟨fun member => ⟨areDiscovered id member, member⟩, And.right⟩
  refine List.Perm.eq_of_pairwise ?_ (pairwise_byRank schedule modules)
    (increasing.imp Nat.le_of_lt) same
  intro first second firstMember secondMember firstLe secondLe
  -- Equal ranks are ranks of one module.
  have firstDiscovered := (List.mem_filter.mp (same.subset firstMember)).1
  have secondDiscovered := (List.mem_filter.mp secondMember).1
  obtain ⟨firstRank, isFirst⟩ :=
    Option.isSome_iff_exists.mp (List.isSome_idxOf?.mpr firstDiscovered)
  obtain ⟨secondRank, isSecond⟩ :=
    Option.isSome_iff_exists.mp (List.isSome_idxOf?.mpr secondDiscovered)
  simp only [Schedule.rank?, isFirst, isSecond, Option.getD_some] at firstLe secondLe
  have sameRank : firstRank = secondRank := Nat.le_antisymm firstLe secondLe
  rw [idxOf?_eq_some_iff_of_nodup discoveryNodup] at isFirst isSecond
  rw [sameRank, isSecond, Option.some.injEq] at isFirst
  exact isFirst.symm

end Ranks

variable [UnitLike U] {graph : Graph U}

/-- No patch leads from an input socket. -/
theorem WellPatched.source_ne_input
    (wellPatched : graph.WellPatched)
    {endpoint : Endpoint}
    {signal : Signal}
    (isInput : graph.HasSocket endpoint .input signal)
    {patch : Patch}
    (member : patch ∈ graph.patches) :
    patch.source ≠ endpoint := by
  rintro rfl
  have directions := (wellPatched.source_output patch member).unique isInput
  cases directions.1

/-- The patches that end at an input socket are those that lead there. -/
theorem patchesAt_of_input
    (wellPatched : graph.WellPatched)
    {endpoint : Endpoint}
    {signal : Signal}
    (isInput : graph.HasSocket endpoint .input signal) :
    graph.patchesAt endpoint = graph.patches.filter (·.target = endpoint) := by
  apply List.filter_congr
  intro patch member
  simp [Patch.touches, wellPatched.source_ne_input isInput member]

/-- At an input socket the far ends are the sources of the patches that lead there. -/
theorem producersAt_of_input
    (wellPatched : graph.WellPatched)
    {endpoint : Endpoint}
    {signal : Signal}
    (isInput : graph.HasSocket endpoint .input signal) :
    graph.producersAt endpoint = graph.producersInto endpoint := by
  have farEnds :
      (graph.patchesAt endpoint).filterMap (·.opposite? endpoint) =
        (graph.patches.filter (·.target = endpoint)).map Patch.source := by
    rw [patchesAt, List.filterMap_filter, ← List.filterMap_eq_map, List.filterMap_filter]
    apply List.filterMap_congr
    intro patch member
    have notSource := wellPatched.source_ne_input isInput member
    simp [Patch.touches, Patch.opposite?, notSource]
  rw [producersAt, producersInto, farEnds, List.map_map]
  rfl

/-- No module is patched into a socket twice. -/
theorem nodup_producersInto
    [LawfulUnit U]
    (wellPatched : graph.WellPatched)
    (endpoint : Endpoint) :
    (graph.producersInto endpoint).Nodup := by
  unfold producersInto
  rw [List.Nodup, List.pairwise_map]
  refine (wellPatched.not_joinsSame.filter _).imp_of_mem ?_
  intro first second firstMember secondMember notSame sameModule
  simp only [List.mem_filter, decide_eq_true_eq] at firstMember secondMember
  apply notSame
  obtain ⟨firstUnit, firstFound, firstNamed⟩ := wellPatched.source_output first firstMember.1
  obtain ⟨secondUnit, secondFound, secondNamed⟩ :=
    wellPatched.source_output second secondMember.1
  rw [sameModule, secondFound, Option.some.injEq] at firstFound
  subst firstFound
  have sameSocket :=
    UnitLike.output_unique (UnitLike.socket?_some firstNamed).1
      (UnitLike.socket?_some secondNamed).1 rfl rfl
  simp only [Socket.mk.injEq, true_and] at sameSocket
  have sameSource : first.source = second.source := by
    cases isFirst : first.source
    cases isSecond : second.source
    simp_all
  simp [Patch.joinsSame, sameSource, firstMember.2, secondMember.2]

/-- The producers at an input socket by rank are the discovered ones in order. -/
theorem byRank_producersAt
    [LawfulUnit U]
    (wellPatched : graph.WellPatched)
    {sinks : List ModuleId}
    {endpoint : Endpoint}
    {signal : Signal}
    (isInput : graph.HasSocket endpoint .input signal)
    (isDiscovered : endpoint.module ∈ graph.discover sinks) :
    byRank (graph.schedule sinks) (graph.producersAt endpoint) =
      (graph.discover sinks).filter (· ∈ graph.producersInto endpoint) := by
  rw [producersAt_of_input wellPatched isInput]
  apply byRank_eq_filter (nodup_discover graph sinks) (nodup_producersInto wellPatched endpoint)
  intro producer member
  exact discover_closed isDiscovered (feeds_of_mem_producersInto member)

end SynthGraph.Graph
