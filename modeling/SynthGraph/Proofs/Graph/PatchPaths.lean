import SynthGraph.Proofs.Graph.Producers

namespace SynthGraph.Graph

/-!
# Paths along patches

A path into a socket follows patches backwards from it.  How many modules of a
sort stand on the paths into a socket is told by the modules patched into it
(`mem_countsInto_iff`), and for a module by what it is itself and by the paths
into its sockets (`mem_countsThrough_iff`).
-/

variable {U : Type} {graph : Graph U} {counted : U → Bool}

/-- A path along patches into a socket, with the modules on it, the nearest one first. -/
inductive PathInto (graph : Graph U) : Endpoint → List ModuleId → Prop where
  | here (endpoint : Endpoint) : PathInto graph endpoint []
  | patch {patch : Patch} {endpoint : Endpoint} {socket : String} {modules : List ModuleId} :
      patch ∈ graph.patches →
      patch.target = endpoint →
      PathInto graph ⟨patch.source.module, socket⟩ modules →
      PathInto graph endpoint (patch.source.module :: modules)

/-- Whether a module is there and its unit counts. -/
def counts (graph : Graph U) (counted : U → Bool) (id : ModuleId) : Bool :=
  (graph.unit? id).any counted

/-- How many modules that count stand on the paths into a socket. -/
def countsInto (graph : Graph U) (counted : U → Bool) (endpoint : Endpoint) : Set Nat :=
  {count | ∃ modules,
    graph.PathInto endpoint modules ∧ modules.countP (graph.counts counted) = count}

/-- How many modules that count stand on the paths that end with a module. -/
def countsThrough (graph : Graph U) (counted : U → Bool) (id : ModuleId) : Set Nat :=
  {count | ∃ socket modules,
    graph.PathInto ⟨id, socket⟩ modules ∧
      (id :: modules).countP (graph.counts counted) = count}

theorem zero_mem_countsInto
    (graph : Graph U)
    (counted : U → Bool)
    (endpoint : Endpoint) :
    0 ∈ graph.countsInto counted endpoint :=
  ⟨[], .here endpoint, rfl⟩

/-- A path into a socket ends with a module that is patched into it, unless it is empty. -/
theorem mem_countsInto_iff
    {endpoint : Endpoint}
    {count : Nat} :
    count ∈ graph.countsInto counted endpoint ↔
      count = 0 ∨
        ∃ producer ∈ graph.producersInto endpoint, count ∈ graph.countsThrough counted producer := by
  constructor
  · rintro ⟨modules, path, rfl⟩
    cases path with
    | here =>
        exact Or.inl rfl
    | patch member isTarget earlier =>
        exact Or.inr ⟨_, mem_producersInto.mpr ⟨_, member, isTarget, rfl⟩, _, _, earlier, rfl⟩
  · rintro (rfl | ⟨producer, isProducer, socket, modules, earlier, rfl⟩)
    · exact zero_mem_countsInto graph counted endpoint
    · obtain ⟨patch, member, isTarget, rfl⟩ := mem_producersInto.mp isProducer
      exact ⟨_, .patch member isTarget earlier, rfl⟩

/-- A path that ends with a module comes into one of its sockets. -/
theorem mem_countsThrough_iff
    {id : ModuleId}
    {unit : U}
    (found : graph.unit? id = some unit)
    {count : Nat} :
    count ∈ graph.countsThrough counted id ↔
      ∃ socket, ∃ earlier ∈ graph.countsInto counted ⟨id, socket⟩,
        count = (if counted unit then 1 else 0) + earlier := by
  have isCounted : graph.counts counted id = counted unit := by
    rw [counts, found, Option.any_some]
  have countCons (modules : List ModuleId) :
      (id :: modules).countP (graph.counts counted) =
        (if counted unit then 1 else 0) + modules.countP (graph.counts counted) := by
    rw [List.countP_cons, isCounted, Nat.add_comm]
  constructor
  · rintro ⟨socket, modules, path, rfl⟩
    exact ⟨socket, _, ⟨modules, path, rfl⟩, countCons modules⟩
  · rintro ⟨socket, _, ⟨modules, path, rfl⟩, rfl⟩
    exact ⟨socket, modules, path, countCons modules⟩

/-- Modules on a path lead to the module it comes into. -/
theorem PathInto.leads
    {endpoint : Endpoint}
    {modules : List ModuleId}
    (path : graph.PathInto endpoint modules) :
    ∀ id ∈ modules, Relation.ReflTransGen graph.Feeds id endpoint.module := by
  induction path with
  | here =>
      simp
  | @patch patch endpoint socket modules member isTarget _ inductionHypothesis =>
      have feeds : graph.Feeds patch.source.module endpoint.module :=
        ⟨patch, member, rfl, congrArg Endpoint.module isTarget⟩
      intro id onPath
      rcases List.mem_cons.mp onPath with rfl | earlier
      · exact .single feeds
      · exact (inductionHypothesis id earlier).tail feeds

/-- Where nothing that counts leads to a module, its paths count nothing. -/
theorem eq_zero_of_mem_countsInto
    {endpoint : Endpoint}
    (none :
      ∀ id unit,
        graph.unit? id = some unit →
          Relation.ReflTransGen graph.Feeds id endpoint.module → counted unit = false)
    {count : Nat}
    (isCount : count ∈ graph.countsInto counted endpoint) :
    count = 0 := by
  obtain ⟨modules, path, rfl⟩ := isCount
  rw [List.countP_eq_zero]
  intro id onPath isCounted
  cases found : graph.unit? id with
  | none =>
      simp [counts, found] at isCounted
  | some unit =>
      simp [counts, found, none id unit found (path.leads id onPath)] at isCounted

section Greatest

variable {id : ModuleId} {unit : U} {most : Nat}

/-- The most that counts on paths into a socket is the most that counts through a producer. -/
theorem isGreatest_countsInto
    {endpoint : Endpoint}
    (atMost :
      ∀ producer ∈ graph.producersInto endpoint,
        ∀ count ∈ graph.countsThrough counted producer, count ≤ most)
    (attained :
      most = 0 ∨
        ∃ producer ∈ graph.producersInto endpoint, most ∈ graph.countsThrough counted producer) :
    IsGreatest (graph.countsInto counted endpoint) most := by
  refine ⟨mem_countsInto_iff.mpr attained, ?_⟩
  intro count isCount
  rcases mem_countsInto_iff.mp isCount with rfl | ⟨producer, isProducer, through⟩
  · exact Nat.zero_le most
  · exact atMost producer isProducer count through

/-- The most that counts through a module, where one of its sockets has the most. -/
theorem isGreatest_countsThrough
    (found : graph.unit? id = some unit)
    {socket : String}
    (greatest : IsGreatest (graph.countsInto counted ⟨id, socket⟩) most)
    (others :
      ∀ other ≠ socket, ∀ count ∈ graph.countsInto counted ⟨id, other⟩, count = 0) :
    IsGreatest (graph.countsThrough counted id) ((if counted unit then 1 else 0) + most) := by
  refine ⟨(mem_countsThrough_iff found).mpr ⟨socket, most, greatest.1, rfl⟩, ?_⟩
  intro count isCount
  obtain ⟨other, earlier, isEarlier, rfl⟩ := (mem_countsThrough_iff found).mp isCount
  apply Nat.add_le_add_left
  by_cases same : other = socket
  · exact greatest.2 (same ▸ isEarlier)
  · rw [others other same earlier isEarlier]
    exact Nat.zero_le most

end Greatest

end SynthGraph.Graph
