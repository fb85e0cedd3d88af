import SynthGraph.Proofs.Graph.Arrivals

namespace SynthGraph

/-!
# Reduction computes the meaning of a graph

The meaning of a module is defined by recursion over its producers: it is what
its unit compiles to when every producer arrives with its own meaning, in order
of discovery.  If no module behind the sinks depends on itself, reduction
compiles each of them once, after its producers, to what it means
(`reducesToMeaning_of_acyclic`).
-/

/-- A module with an emission has been compiled, and its emission is found. -/
theorem Emissions.get?_of_mem
    {emissions : Emissions}
    {id : ModuleId}
    (member : id ∈ emissions.map Prod.fst) :
    ∃ emission, emissions.get? id = some emission ∧ (id, emission) ∈ emissions := by
  cases found : emissions.find? (·.1 = id) with
  | none =>
      obtain ⟨step, isStep, rfl⟩ := List.mem_map.mp member
      simpa using List.find?_eq_none.mp found step isStep
  | some step =>
      have isNamed : step.1 = id := by
        simpa using List.find?_some found
      refine ⟨step.2, by simp [get?, found], ?_⟩
      rw [← isNamed]
      exact List.mem_of_find?_eq_some found

namespace Graph

variable {U : Type} [UnitLike U]

/-- What arrives at a module when every producer emits what it means. -/
def gathered
    (graph : Graph U)
    (discovery : List ModuleId)
    (meaning : ModuleId → Emission)
    (id : ModuleId)
    (unit : U) :
    Connections :=
  .ofSockets (UnitLike.inputs unit) fun name =>
    (discovery.filter (· ∈ graph.producersInto ⟨id, name⟩)).map meaning

/--
The meaning of a module, by recursion over the modules that feed it.  Modules on
a cycle have none.
-/
inductive Means
    (graph : Graph U)
    (context : UnitLike.Context U)
    (discovery : List ModuleId) :
    ModuleId → Emission → Prop where
  | unit {id : ModuleId} {unit : U} {meaning : ModuleId → Emission} :
      graph.unit? id = some unit →
      (∀ producer, graph.Feeds producer id →
        Means graph context discovery producer (meaning producer)) →
      Means graph context discovery id
        (UnitLike.compile context (graph.gathered discovery meaning id unit) unit)

/-- Reduction compiles the modules behind the sinks, and each to what it means. -/
structure ReducesToMeaning
    (graph : Graph U)
    (context : UnitLike.Context U)
    (sinks : List ModuleId) :
    Prop where
  /-- Every module is compiled once at most. -/
  steps_nodup : ((graph.reduce context sinks).map Prod.fst).Nodup
  /-- The modules behind the sinks are compiled. -/
  compiled :
    ∀ id, graph.Behind sinks id → ∃ emission, (id, emission) ∈ graph.reduce context sinks
  /-- No other modules are compiled, and emissions are meanings. -/
  mem_reduce :
    ∀ id emission,
      (id, emission) ∈ graph.reduce context sinks ↔
        graph.Behind sinks id ∧
          graph.Means context (graph.discover sinks) id emission
  /-- Producers are compiled before what they feed. -/
  producers_before :
    ∀ before id emission after,
      graph.reduce context sinks = before ++ (id, emission) :: after →
        ∀ producer, graph.Feeds producer id → producer ∈ before.map Prod.fst
  /-- The producers that arrive at a socket are those of its patches, one for each patch. -/
  producers_perm :
    ∀ endpoint, graph.Behind sinks endpoint.module →
      ((graph.discover sinks).filter (· ∈ graph.producersInto endpoint)).Perm
        (graph.producersInto endpoint)

theorem gathered_congr
    {graph : Graph U}
    {id : ModuleId}
    {meaning other : ModuleId → Emission}
    (same : ∀ producer, graph.Feeds producer id → meaning producer = other producer)
    (discovery : List ModuleId)
    (unit : U) :
    graph.gathered discovery meaning id unit = graph.gathered discovery other id unit := by
  apply Connections.ofSockets_congr
  intro socket _
  apply List.map_congr_left
  intro producer member
  simp only [List.mem_filter, decide_eq_true_eq] at member
  exact same producer (feeds_of_mem_producersInto member.2)

/-- At an input arrive the meanings of what is patched into it, in order of discovery. -/
theorem get_gathered
    (graph : Graph U)
    (discovery : List ModuleId)
    (meaning : ModuleId → Emission)
    (id : ModuleId)
    {unit : U}
    {socket : Socket}
    (isInput : socket ∈ UnitLike.inputs unit) :
    (graph.gathered discovery meaning id unit).get socket.name =
      (discovery.filter (· ∈ graph.producersInto ⟨id, socket.name⟩)).map meaning :=
  Connections.get_ofSockets _ isInput

/-- A module means one thing only. -/
theorem Means.unique
    {graph : Graph U}
    {context : UnitLike.Context U}
    {discovery : List ModuleId}
    {id : ModuleId}
    {emission other : Emission}
    (first : graph.Means context discovery id emission)
    (second : graph.Means context discovery id other) :
    emission = other := by
  induction first generalizing other with
  | @unit id present meaning found _ inductionHypothesis =>
      cases second with
      | unit otherFound otherFeeds =>
          rw [found, Option.some.injEq] at otherFound
          subst otherFound
          rw [gathered_congr]
          intro producer feeds
          exact inductionHypothesis producer feeds (otherFeeds producer feeds)

/-- The emission of a module behind the sinks is found, and it is what the module means. -/
theorem ReducesToMeaning.get?_eq
    {graph : Graph U}
    {context : UnitLike.Context U}
    {sinks : List ModuleId}
    (reduces : graph.ReducesToMeaning context sinks)
    {id : ModuleId}
    {emission : Emission}
    (behind : graph.Behind sinks id)
    (means : graph.Means context (graph.discover sinks) id emission) :
    (graph.reduce context sinks).get? id = some emission := by
  have isStep := (reduces.mem_reduce id emission).mpr ⟨behind, means⟩
  obtain ⟨other, found, member⟩ :=
    Emissions.get?_of_mem (List.mem_map_of_mem (f := Prod.fst) isStep)
  have otherMeans := ((reduces.mem_reduce id other).mp member).2
  rw [found, otherMeans.unique means]

/-- Every module behind the sinks is read back with what it means. -/
theorem ReducesToMeaning.exists_get?
    {graph : Graph U}
    {context : UnitLike.Context U}
    {sinks : List ModuleId}
    (reduces : graph.ReducesToMeaning context sinks)
    {id : ModuleId}
    (behind : graph.Behind sinks id) :
    ∃ emission,
      (graph.reduce context sinks).get? id = some emission ∧
        graph.Means context (graph.discover sinks) id emission := by
  obtain ⟨emission, isStep⟩ := reduces.compiled id behind
  have means := ((reduces.mem_reduce id emission).mp isStep).2
  exact ⟨emission, reduces.get?_eq behind means, means⟩

section Existence

variable {graph : Graph U} {context : UnitLike.Context U} {discovery : List ModuleId}

/-- A module from which no endless chain of producers starts has a meaning. -/
theorem exists_means
    (wellPatched : graph.WellPatched)
    {id : ModuleId}
    (grounded : Acc graph.Feeds id)
    {unit : U}
    (found : graph.unit? id = some unit) :
    ∃ emission, graph.Means context discovery id emission := by
  induction grounded generalizing unit with
  | intro id _ inductionHypothesis =>
      have each (producer : ModuleId) :
          ∃ emission,
            graph.Feeds producer id → graph.Means context discovery producer emission := by
        by_cases feeds : graph.Feeds producer id
        · have ⟨patch, member, source, _⟩ := feeds
          obtain ⟨producerUnit, producerFound, _⟩ := wellPatched.source_output patch member
          rw [source] at producerFound
          obtain ⟨emission, means⟩ := inductionHypothesis producer feeds producerFound
          exact ⟨emission, fun _ => means⟩
        · exact ⟨.nothing, fun known => absurd known feeds⟩
      choose meaning means using each
      exact ⟨_, .unit found means⟩

/-- A choice of what every module of a graph means. -/
def IsMeaning
    (graph : Graph U)
    (context : UnitLike.Context U)
    (discovery : List ModuleId)
    (meaning : ModuleId → Emission) :
    Prop :=
  ∀ id unit, graph.unit? id = some unit → graph.Means context discovery id (meaning id)

theorem exists_isMeaning
    (wellPatched : graph.WellPatched)
    (wellFounded : WellFounded graph.Feeds)
    (context : UnitLike.Context U)
    (discovery : List ModuleId) :
    ∃ meaning, graph.IsMeaning context discovery meaning := by
  have each (id : ModuleId) :
      ∃ emission, ∀ unit, graph.unit? id = some unit → graph.Means context discovery id emission := by
    cases found : graph.unit? id with
    | none =>
        exact ⟨.nothing, by simp⟩
    | some unit =>
        obtain ⟨emission, means⟩ := exists_means wellPatched (wellFounded.apply id) found
        exact ⟨emission, fun _ _ => means⟩
  choose meaning means using each
  exact ⟨meaning, means⟩

/-- What a module means is compiled from what its producers mean. -/
theorem IsMeaning.eq_compile
    {meaning : ModuleId → Emission}
    (isMeaning : graph.IsMeaning context discovery meaning)
    (wellPatched : graph.WellPatched)
    {id : ModuleId}
    {unit : U}
    (found : graph.unit? id = some unit) :
    meaning id =
      UnitLike.compile context (graph.gathered discovery meaning id unit) unit := by
  refine (isMeaning id unit found).unique (.unit found ?_)
  rintro producer ⟨patch, member, rfl, _⟩
  obtain ⟨producerUnit, producerFound, _⟩ := wellPatched.source_output patch member
  exact isMeaning _ producerUnit producerFound

end Existence

section Evaluation

variable
  {graph : Graph U}
  {context : UnitLike.Context U}
  {sinks : List ModuleId}
  {emissions : Emissions}
  {before : List ModuleId}

/-- The modules behind the sinks are there. -/
theorem Behind.unit?_isSome
    (wellPatched : graph.WellPatched)
    {id : ModuleId}
    (behind : graph.Behind sinks id) :
    ∃ unit, graph.unit? id = some unit := by
  obtain ⟨sink, _, isThere, path⟩ := behind
  cases path using Relation.ReflTransGen.head_induction_on with
  | refl =>
      obtain ⟨module, found⟩ := Option.isSome_iff_exists.mp isThere
      exact ⟨module.unit, by simp [unit?, found]⟩
  | head feeds =>
      obtain ⟨patch, member, rfl, _⟩ := feeds
      obtain ⟨unit, found, _⟩ := wellPatched.source_output patch member
      exact ⟨unit, found⟩

/-- Some modules have been compiled, in order, to what they mean. -/
structure Evaluated
    (graph : Graph U)
    (context : UnitLike.Context U)
    (discovery : List ModuleId)
    (emissions : Emissions)
    (modules : List ModuleId) :
    Prop where
  modules_eq : emissions.map Prod.fst = modules
  means : ∀ id emission, (id, emission) ∈ emissions → graph.Means context discovery id emission

/-- A compiled module is read back with its meaning. -/
theorem Evaluated.get?
    (evaluated : graph.Evaluated context (graph.discover sinks) emissions before)
    {id : ModuleId}
    (member : id ∈ before) :
    ∃ emission,
      emissions.get? id = some emission ∧
        graph.Means context (graph.discover sinks) id emission := by
  rw [← evaluated.modules_eq] at member
  obtain ⟨emission, found, isStep⟩ := Emissions.get?_of_mem member
  exact ⟨emission, found, evaluated.means id emission isStep⟩

/-- When all producers of a module are compiled, their emissions arrive by discovery. -/
theorem connections_eq_gathered
    [LawfulUnit U]
    (wellPatched : graph.WellPatched)
    {id : ModuleId}
    {unit : U}
    (found : graph.unit? id = some unit)
    (behind : graph.Behind sinks id)
    {meaning : ModuleId → Emission}
    (compiled :
      ∀ producer, graph.Feeds producer id → emissions.get? producer = some (meaning producer)) :
    graph.connections (graph.schedule sinks) emissions id unit =
      graph.gathered (graph.discover sinks) meaning id unit := by
  rw [connections_eq_ofSockets]
  apply Connections.ofSockets_congr
  intro socket member
  have present := hasSocket_of_mem_inputs found member
  rw [arrivals, byRank_producersAt wellPatched present (mem_discover.mpr behind)]
  rw [← List.filterMap_eq_map]
  apply List.filterMap_congr
  intro producer isProducer
  simp only [List.mem_filter, decide_eq_true_eq] at isProducer
  exact compiled producer (feeds_of_mem_producersInto isProducer.2)

/-- Compiling one more module, whose producers are compiled, gives its meaning. -/
theorem Evaluated.emitNext
    [LawfulUnit U]
    (wellPatched : graph.WellPatched)
    (evaluated : graph.Evaluated context (graph.discover sinks) emissions before)
    {id : ModuleId}
    (behind : graph.Behind sinks id)
    (producersCompiled : ∀ producer, graph.Feeds producer id → producer ∈ before) :
    graph.Evaluated context (graph.discover sinks)
      (graph.emitNext context (graph.schedule sinks) emissions id)
      (before ++ [id]) := by
  obtain ⟨unit, found⟩ := behind.unit?_isSome wellPatched
  let meaning : ModuleId → Emission := fun producer =>
    (emissions.get? producer).getD .nothing
  have compiled :
      ∀ producer, graph.Feeds producer id →
        emissions.get? producer = some (meaning producer) ∧
          graph.Means context (graph.discover sinks) producer (meaning producer) := by
    intro producer feeds
    obtain ⟨emission, isCompiled, means⟩ :=
      evaluated.get? (producersCompiled producer feeds)
    have isMeaning : meaning producer = emission := by
      simp [meaning, isCompiled]
    rw [isMeaning]
    exact ⟨isCompiled, means⟩
  have arriving :=
    connections_eq_gathered wellPatched found behind
      fun producer feeds => (compiled producer feeds).1
  simp only [Graph.emitNext, found, arriving]
  refine ⟨by simp [evaluated.modules_eq], ?_⟩
  intro other emission member
  rcases List.mem_append.mp member with known | new
  · exact evaluated.means other emission known
  · cases List.mem_singleton.mp new
    exact .unit found fun producer feeds => (compiled producer feeds).2

/-- Compiling modules producers first gives the meaning of all of them. -/
theorem Evaluated.foldl_emitNext
    [LawfulUnit U]
    (wellPatched : graph.WellPatched)
    {order : List ModuleId}
    (evaluated : graph.Evaluated context (graph.discover sinks) emissions before)
    (areBehind : ∀ id ∈ order, graph.Behind sinks id)
    (producersFirst :
      ∀ early id late, order = early ++ id :: late →
        ∀ producer, graph.Feeds producer id → producer ∈ before ++ early) :
    graph.Evaluated context (graph.discover sinks)
      (order.foldl (graph.emitNext context (graph.schedule sinks)) emissions)
      (before ++ order) := by
  induction order generalizing emissions before with
  | nil =>
      simpa using evaluated
  | cons id rest inductionHypothesis =>
      have next :=
        evaluated.emitNext wellPatched (areBehind id List.mem_cons_self) fun producer feeds => by
          simpa using producersFirst [] id rest rfl producer feeds
      rw [List.foldl_cons, List.append_cons]
      apply inductionHypothesis next
      · intro other member
        exact areBehind other (List.mem_cons_of_mem _ member)
      · intro early other late splits producer feeds
        have isBefore :=
          producersFirst (id :: early) other late (by rw [splits, List.cons_append]) producer feeds
        simpa using isBefore

end Evaluation

/-- On a well patched graph without cycles behind the sinks reduction computes meanings. -/
theorem reducesToMeaning_of_acyclic
    [LawfulUnit U]
    {graph : Graph U}
    (wellPatched : graph.WellPatched)
    (context : UnitLike.Context U)
    {sinks : List ModuleId}
    (acyclic : graph.AcyclicBehind sinks) :
    graph.ReducesToMeaning context sinks := by
  have discoveryNodup := nodup_discover graph sinks
  have sameModules : (graph.emissionOrder (graph.discover sinks)).Perm (graph.discover sinks) :=
    perm_emissionOrder discoveryNodup
  have mem_order (id : ModuleId) :
      id ∈ graph.emissionOrder (graph.discover sinks) ↔ graph.Behind sinks id :=
    sameModules.mem_iff.trans mem_discover
  have grounded : ∀ id ∈ graph.discover sinks, Acc graph.Feeds id :=
    fun id member => acyclic.acc (mem_discover.mp member)
  have producersFirst :
      ∀ early id late,
        graph.emissionOrder (graph.discover sinks) = early ++ id :: late →
          ∀ producer, graph.Feeds producer id → producer ∈ early := by
    intro early id late splits producer feeds
    refine feeds_before discoveryNodup grounded splits feeds ?_
    refine discover_closed (mem_discover.mpr ((mem_order id).mp ?_)) feeds
    rw [splits]
    exact List.mem_append_right _ List.mem_cons_self
  have evaluated :
      graph.Evaluated context (graph.discover sinks) (graph.reduce context sinks)
        (graph.emissionOrder (graph.discover sinks)) := by
    have start : graph.Evaluated context (graph.discover sinks) [] [] :=
      ⟨rfl, fun _ _ member => by cases member⟩
    apply start.foldl_emitNext wellPatched fun id member => (mem_order id).mp member
    intro early id late splits producer feeds
    exact producersFirst early id late splits producer feeds
  have compiled (id : ModuleId) (behind : graph.Behind sinks id) :
      ∃ emission, (id, emission) ∈ graph.reduce context sinks := by
    have member := (mem_order id).mpr behind
    rw [← evaluated.modules_eq] at member
    obtain ⟨emission, _, isStep⟩ := Emissions.get?_of_mem member
    exact ⟨emission, isStep⟩
  constructor
  · rw [evaluated.modules_eq]
    exact sameModules.nodup_iff.mpr discoveryNodup
  · exact compiled
  · intro id emission
    constructor
    · intro member
      have isOrdered := List.mem_map_of_mem (f := Prod.fst) member
      rw [evaluated.modules_eq] at isOrdered
      exact ⟨(mem_order id).mp isOrdered, evaluated.means id emission member⟩
    · rintro ⟨behind, means⟩
      obtain ⟨other, member⟩ := compiled id behind
      rw [means.unique (evaluated.means id other member)]
      exact member
  · intro before id emission after splits producer feeds
    have modules := evaluated.modules_eq
    rw [splits, List.map_append, List.map_cons] at modules
    exact producersFirst _ id _ modules.symm producer feeds
  · intro endpoint behind
    rw [List.perm_ext_iff_of_nodup (discoveryNodup.filter _)
      (nodup_producersInto wellPatched endpoint)]
    intro producer
    simp only [List.mem_filter, decide_eq_true_eq, and_iff_right_iff_imp]
    intro member
    exact discover_closed (mem_discover.mpr behind) (feeds_of_mem_producersInto member)

/-- Both catalogs reduce to what their graphs mean, whatever was done to build them. -/
theorem catalogs_reducesToMeaning :
    (∀ (operations : List (Operation InstrumentUnit)) (sinks : List ModuleId) (context : Unit),
        (empty.run operations).AcyclicBehind sinks →
          (empty.run operations).ReducesToMeaning context sinks) ∧
      ∀ (operations : List (Operation SequenceUnit)) (sinks : List ModuleId) (context : UInt8),
        (empty.run operations).AcyclicBehind sinks →
          (empty.run operations).ReducesToMeaning context sinks :=
  ⟨fun operations _ context => reducesToMeaning_of_acyclic (wellPatched_run operations) context,
    fun operations _ context => reducesToMeaning_of_acyclic (wellPatched_run operations) context⟩

/-- A sine behind a filter and beside it, and a pulse that triggers two notes. -/
theorem reducesToMeaning_of_shared_producers :
    let sound : List (Operation InstrumentUnit) :=
      [.add .input .origin,
        .add .output .origin,
        .add (.transpose Transpose.dials) .origin,
        .add (.ofWaveform .sine) .origin,
        .add (.ofMode .lowPass) .origin,
        .connect ⟨0, "FREQ"⟩ ⟨2, "FREQ IN"⟩,
        .connect ⟨3, "FREQ"⟩ ⟨2, "FREQ"⟩,
        .connect ⟨3, "OUT"⟩ ⟨1, "IN"⟩,
        .connect ⟨3, "OUT"⟩ ⟨4, "IN"⟩,
        .connect ⟨4, "OUT"⟩ ⟨1, "IN"⟩]
    let notes : List (Operation SequenceUnit) :=
      [.add .input .origin,
        .add (.playNote PlayNote.dials) .origin,
        .add (.playNote PlayNote.dials) .origin,
        .add (.pulse Pulse.dials) .origin,
        .connect ⟨0, "CLOCK"⟩ ⟨3, "CLOCK"⟩,
        .connect ⟨3, "TRIG"⟩ ⟨1, "TRIG"⟩,
        .connect ⟨2, "TRIG"⟩ ⟨3, "TRIG"⟩]
    (empty.run sound).AcyclicBehind [1] ∧
      (empty.run notes).AcyclicBehind [2, 1, 2] ∧
      (empty.run sound).ReducesToMeaning () [1] ∧
      (empty.run notes).ReducesToMeaning (1 : UInt8) [2, 1, 2] := by
  intro sound notes
  have soundAcyclic : (empty.run sound).AcyclicBehind [1] :=
    acyclicBehind_of_wellFounded
      (wellFounded_feeds (fun id => if id = 1 then 5 else id) (by decide)) [1]
  have notesAcyclic : (empty.run notes).AcyclicBehind [2, 1, 2] :=
    acyclicBehind_of_wellFounded
      (wellFounded_feeds (fun id => if id = 0 then 0 else 4 - id) (by decide)) [2, 1, 2]
  exact ⟨soundAcyclic, notesAcyclic,
    catalogs_reducesToMeaning.1 sound [1] () soundAcyclic,
    catalogs_reducesToMeaning.2 notes [2, 1, 2] 1 notesAcyclic⟩

end Graph

end SynthGraph
