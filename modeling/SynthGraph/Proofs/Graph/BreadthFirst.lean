import SynthGraph.Proofs.Graph.Meaning

namespace SynthGraph.Graph

/-!
# Discovery is breadth first

The walk visits modules in the order in which they were seen.  When it comes to a
module, it has seen the sinks and all that feeds the modules before it
(`exists_seen`).  So a module is found through the first of the modules that it
feeds, and what is nearer to a sink is found earlier (`idxOf_lt_of_within`).
-/

section Order

variable {seen candidates : List ModuleId} {first second : ModuleId}

/-- What comes first among the candidates comes first among those that are unseen. -/
theorem idxOf_unseen_lt_iff
    (firstNew : first ∉ seen)
    (secondNew : second ∉ seen) :
    (unseen seen candidates).idxOf first < (unseen seen candidates).idxOf second ↔
      candidates.idxOf first < candidates.idxOf second := by
  induction candidates generalizing seen with
  | nil =>
      simp [unseen]
  | cons candidate rest inductionHypothesis =>
      rw [unseen]
      split
      · rename_i known
        have notFirst : candidate ≠ first := fun same => firstNew (same ▸ known)
        have notSecond : candidate ≠ second := fun same => secondNew (same ▸ known)
        rw [inductionHypothesis firstNew secondNew, List.idxOf_cons_ne _ notFirst,
          List.idxOf_cons_ne _ notSecond, Nat.succ_lt_succ_iff]
      · by_cases isFirst : candidate = first
        · subst isFirst
          by_cases isSecond : candidate = second
          · subst isSecond
            simp
          · simp [List.idxOf_cons_ne _ isSecond]
        · by_cases isSecond : candidate = second
          · subst isSecond
            simp
          · rw [List.idxOf_cons_ne _ isFirst, List.idxOf_cons_ne _ isSecond,
              List.idxOf_cons_ne _ isFirst, List.idxOf_cons_ne _ isSecond,
              Nat.succ_lt_succ_iff, Nat.succ_lt_succ_iff]
            apply inductionHypothesis
            · simpa using ⟨firstNew, Ne.symm isFirst⟩
            · simpa using ⟨secondNew, Ne.symm isSecond⟩

/-- What is left of a list without earlier occurrences is what has not been seen. -/
theorem unseen_eq_eraseDups
    (seen candidates : List ModuleId) :
    unseen seen candidates = (candidates.filter (· ∉ seen)).eraseDups := by
  induction candidates generalizing seen with
  | nil =>
      rfl
  | cons candidate rest inductionHypothesis =>
      rw [unseen]
      split
      · rename_i known
        rw [inductionHypothesis, List.filter_cons_of_neg (by simpa using known)]
      · rename_i new
        rw [inductionHypothesis, List.filter_cons_of_pos (by simpa using new),
          List.eraseDups_cons, List.filter_filter]
        congr 3
        funext id
        by_cases same : id = candidate <;> simp [same, new]

end Order

variable {U : Type} {graph : Graph U}

/-- The position of the first patch from a producer to a consumer. -/
def firstPatch (graph : Graph U) (producer consumer : ModuleId) : Nat :=
  graph.patches.findIdx fun patch =>
    patch.source.module = producer && patch.target.module = consumer

/-- Feeders come in the order of their first patches. -/
theorem idxOf_feeders_lt_iff
    (graph : Graph U)
    (producer other consumer : ModuleId) :
    (graph.feeders consumer).idxOf producer < (graph.feeders consumer).idxOf other ↔
      graph.firstPatch producer consumer < graph.firstPatch other consumer := by
  unfold feeders firstPatch
  induction graph.patches with
  | nil =>
      simp
  | cons patch rest inductionHypothesis =>
      by_cases isTarget : patch.target.module = consumer
      · by_cases isProducer : patch.source.module = producer <;>
          by_cases isOther : patch.source.module = other <;>
            simp_all [List.findIdx_cons, List.idxOf_cons_ne]
      · simp_all [List.findIdx_cons]

section Walk

/-- The modules that have been seen when one more is visited. -/
def see (graph : Graph U) (seen : List ModuleId) (current : ModuleId) : List ModuleId :=
  seen ++ unseen seen (graph.feeders current)

theorem mem_foldl_see
    {start modules : List ModuleId}
    {id : ModuleId} :
    id ∈ modules.foldl graph.see start ↔
      id ∈ start ∨ ∃ consumer ∈ modules, graph.Feeds id consumer := by
  induction modules generalizing start with
  | nil =>
      simp
  | cons current rest inductionHypothesis =>
      have mem_see : id ∈ graph.see start current ↔ id ∈ start ∨ graph.Feeds id current := by
        rw [see, List.mem_append, mem_unseen, mem_feeders]
        by_cases known : id ∈ start <;> simp [known]
      rw [List.foldl_cons, inductionHypothesis, mem_see, or_assoc]
      simp

theorem prefix_foldl_see
    (start modules : List ModuleId) :
    start <+: modules.foldl graph.see start := by
  induction modules generalizing start with
  | nil =>
      exact List.prefix_rfl
  | cons current rest inductionHypothesis =>
      exact (List.prefix_append _ _).trans (inductionHypothesis (graph.see start current))

/-- A walk has seen what its visits show, and visits only what it saw before. -/
structure Seeing (graph : Graph U) (start visited pending : List ModuleId) : Prop where
  seen : visited ++ pending = visited.foldl graph.see start
  ahead :
    ∀ before current after,
      visited = before ++ current :: after →
        before ++ [current] <+: before.foldl graph.see start

theorem Seeing.step
    {start visited pending : List ModuleId}
    {current : ModuleId}
    (seeing : graph.Seeing start visited (current :: pending)) :
    graph.Seeing start (visited ++ [current])
      (pending ++ unseen (visited ++ current :: pending) (graph.feeders current)) where
  seen := by
    rw [List.foldl_append, ← seeing.seen]
    simp [see]
  ahead := by
    intro before other after splits
    rcases List.eq_nil_or_concat after with rfl | ⟨early, last, rfl⟩
    · obtain ⟨rfl, isCurrent⟩ := List.append_inj' splits rfl
      cases isCurrent
      rw [← seeing.seen]
      exact (List.prefix_append_right_inj _).mpr (List.prefix_append [current] pending)
    · have isVisited : visited = before ++ other :: early := by
        rw [List.concat_eq_append, ← List.cons_append, ← List.append_assoc] at splits
        exact (List.append_inj' splits rfl).1
      exact seeing.ahead before other early isVisited

end Walk

section Discover

variable {sinks : List ModuleId}

/-- The walk starts with the sinks that are there. -/
theorem liveSinks_first
    (graph : Graph U)
    (sinks : List ModuleId) :
    graph.liveSinks sinks <+: graph.discover sinks := by
  have walking := walking_discover graph sinks
  have sinksFirst := walking.start_prefix
  rwa [List.append_nil] at sinksFirst

theorem seeing_discover
    (graph : Graph U)
    (sinks : List ModuleId) :
    graph.Seeing (graph.liveSinks sinks) (graph.discover sinks) [] :=
  walk_induction (fun _ _ _ seeing => seeing.step)
    ⟨rfl, fun before current after splits => by simp at splits⟩

/-- A list without repetition splits at the position of a module. -/
theorem idxOf_of_splits
    {discovery before after : List ModuleId}
    {current : ModuleId}
    (discoveryNodup : discovery.Nodup)
    (splits : discovery = before ++ current :: after) :
    discovery.idxOf current = before.length := by
  rw [splits, List.nodup_middle, List.nodup_cons] at discoveryNodup
  have new : current ∉ before := fun again => discoveryNodup.1 (List.mem_append_left _ again)
  rw [splits, List.idxOf_append_of_notMem new, List.idxOf_cons_self, Nat.add_zero]

/--
When the walk comes to a module, it has seen the sinks and what feeds the modules
before it; what it sees there first is found next.
-/
theorem exists_seen
    {current : ModuleId}
    (isVisited : current ∈ graph.discover sinks) :
    ∃ seen,
      (∀ id,
          id ∈ seen ↔
            id ∈ graph.liveSinks sinks ∨
              ∃ earlier,
                (graph.discover sinks).idxOf earlier < (graph.discover sinks).idxOf current ∧
                  graph.Feeds id earlier) ∧
        current ∈ seen ∧
        seen ++ unseen seen (graph.feeders current) <+: graph.discover sinks := by
  have seeing := seeing_discover graph sinks
  obtain ⟨before, after, splits⟩ := List.append_of_mem isVisited
  have isPrefix : before <+: graph.discover sinks := ⟨_, splits.symm⟩
  have atCurrent := idxOf_of_splits (nodup_discover graph sinks) splits
  refine ⟨before.foldl graph.see (graph.liveSinks sinks), ?_, ?_, ?_⟩
  · intro id
    simp only [mem_foldl_see, isPrefix.mem_iff_idxOf_lt_length, atCurrent]
  · exact (seeing.ahead before current after splits).subset (by simp)
  · have whole := seeing.seen
    rw [List.append_nil] at whole
    nth_rewrite 2 [splits] at whole
    rw [List.foldl_append, List.foldl_cons] at whole
    rw [whole]
    exact prefix_foldl_see _ after

/-- What is seen when the walk comes to a module was found before all that is not. -/
theorem idxOf_lt_of_seen
    {discovery seen : List ModuleId}
    (isPrefix : seen <+: discovery)
    {first second : ModuleId}
    (isSeen : first ∈ seen)
    (new : second ∉ seen) :
    discovery.idxOf first < discovery.idxOf second := by
  rw [isPrefix.mem_iff_idxOf_lt_length] at isSeen new
  exact Nat.lt_of_lt_of_le isSeen (Nat.le_of_not_lt new)

/-- The walk finds the producer when it visits the consumer. -/
structure FoundThrough
    (graph : Graph U)
    (sinks discovery : List ModuleId)
    (producer consumer : ModuleId) :
    Prop where
  not_sink : producer ∉ graph.liveSinks sinks
  visited : consumer ∈ discovery
  feeds : graph.Feeds producer consumer
  first :
    ∀ other, graph.Feeds producer other →
      discovery.idxOf consumer ≤ discovery.idxOf other

section Found

variable {producer other consumer : ModuleId}

/-- What the walk finds at a module has not been seen before. -/
theorem FoundThrough.notMem
    (found : graph.FoundThrough sinks (graph.discover sinks) producer consumer)
    {seen : List ModuleId}
    (mem_seen :
      ∀ id,
        id ∈ seen ↔
          id ∈ graph.liveSinks sinks ∨
            ∃ earlier,
              (graph.discover sinks).idxOf earlier < (graph.discover sinks).idxOf consumer ∧
                graph.Feeds id earlier) :
    producer ∉ seen := by
  rw [mem_seen]
  rintro (isLive | ⟨earlier, before, feeds⟩)
  · exact found.not_sink isLive
  · exact absurd (found.first earlier feeds) (Nat.not_le_of_lt before)

/-- A module is found after the module through which it is found. -/
theorem FoundThrough.idxOf_lt
    (found : graph.FoundThrough sinks (graph.discover sinks) producer consumer) :
    (graph.discover sinks).idxOf consumer < (graph.discover sinks).idxOf producer := by
  obtain ⟨seen, mem_seen, isSeen, isPrefix⟩ := exists_seen found.visited
  exact idxOf_lt_of_seen ((List.prefix_append _ _).trans isPrefix) isSeen (found.notMem mem_seen)

/-- Modules that are found through the same module come in the order of their first patches. -/
theorem FoundThrough.idxOf_lt_iff
    (found : graph.FoundThrough sinks (graph.discover sinks) producer consumer)
    (otherFound : graph.FoundThrough sinks (graph.discover sinks) other consumer) :
    (graph.discover sinks).idxOf producer < (graph.discover sinks).idxOf other ↔
      graph.firstPatch producer consumer < graph.firstPatch other consumer := by
  obtain ⟨seen, mem_seen, _, isPrefix⟩ := exists_seen found.visited
  have new := found.notMem mem_seen
  have otherNew := otherFound.notMem mem_seen
  have position {id : ModuleId} (notSeen : id ∉ seen) (feeds : graph.Feeds id consumer) :
      (graph.discover sinks).idxOf id =
        seen.length + (unseen seen (graph.feeders consumer)).idxOf id := by
    have isNext : id ∈ unseen seen (graph.feeders consumer) :=
      mem_unseen.mpr ⟨mem_feeders.mpr feeds, notSeen⟩
    rw [← isPrefix.idxOf_eq_of_mem (List.mem_append_right _ isNext),
      List.idxOf_append_of_notMem notSeen]
  rw [position new found.feeds, position otherNew otherFound.feeds, Nat.add_lt_add_iff_left,
    idxOf_unseen_lt_iff new otherNew, idxOf_feeders_lt_iff]

/-- Every module that is found and is no sink is found through some module. -/
theorem exists_foundThrough
    (isFound : producer ∈ graph.discover sinks)
    (notSink : producer ∉ graph.liveSinks sinks) :
    ∃ consumer, graph.FoundThrough sinks (graph.discover sinks) producer consumer := by
  obtain ⟨sink, isSink, isThere, path⟩ := mem_discover.mp isFound
  rcases path.cases_head with rfl | ⟨fed, feeds, later⟩
  · exact absurd (mem_liveSinks.mpr ⟨isSink, isThere⟩) notSink
  · have fedFound : fed ∈ graph.discover sinks :=
      mem_discover.mpr ⟨sink, isSink, isThere, later⟩
    -- The first module of the walk that the producer feeds.
    have isSome :
        ((graph.discover sinks).find? (producer ∈ graph.feeders ·)).isSome :=
      List.find?_isSome.mpr ⟨fed, fedFound, by simpa using mem_feeders.mpr feeds⟩
    obtain ⟨consumer, isFirst⟩ := Option.isSome_iff_exists.mp isSome
    obtain ⟨feedsFirst, before, after, splits, noneBefore⟩ :=
      List.find?_eq_some_iff_append.mp isFirst
    refine ⟨consumer, notSink, List.mem_of_find?_eq_some isFirst,
      mem_feeders.mp (of_decide_eq_true feedsFirst), ?_⟩
    intro other feedsOther
    have notBefore : other ∉ before := by
      intro isBefore
      simpa [mem_feeders.mpr feedsOther] using noneBefore other isBefore
    have atConsumer := idxOf_of_splits (nodup_discover graph sinks) splits
    rw [atConsumer, splits, List.idxOf_append_of_notMem notBefore]
    exact Nat.le_add_right _ _

end Found

end Discover

section Distance

variable {sinks : List ModuleId} {id : ModuleId}

/-- Following so many patches from the module leads to a sink that is there. -/
inductive LeadsIn (graph : Graph U) (sinks : List ModuleId) : Nat → ModuleId → Prop where
  | sink {id : ModuleId} :
      id ∈ sinks → (graph.module? id).isSome → LeadsIn graph sinks 0 id
  | patch {length : Nat} {producer consumer : ModuleId} :
      graph.Feeds producer consumer →
        LeadsIn graph sinks length consumer →
          LeadsIn graph sinks (length + 1) producer

/-- The lengths of the ways from a module to the sinks that are there. -/
def lengths (graph : Graph U) (sinks : List ModuleId) (id : ModuleId) : Set Nat :=
  { length | graph.LeadsIn sinks length id }

theorem behind_iff_exists_leadsIn :
    graph.Behind sinks id ↔ ∃ length, graph.LeadsIn sinks length id := by
  constructor
  · rintro ⟨sink, isSink, isThere, path⟩
    induction path using Relation.ReflTransGen.head_induction_on with
    | refl =>
        exact ⟨0, .sink isSink isThere⟩
    | head feeds _ inductionHypothesis =>
        obtain ⟨length, leads⟩ := inductionHypothesis
        exact ⟨length + 1, .patch feeds leads⟩
  · rintro ⟨length, leads⟩
    induction leads with
    | sink isSink isThere =>
        exact ⟨_, isSink, isThere, .refl⟩
    | patch feeds _ inductionHypothesis =>
        exact inductionHypothesis.of_feeds feeds

/-- Whether at most so many patches lead from the module to a sink that is there. -/
def Within (graph : Graph U) (sinks : List ModuleId) (bound : Nat) (id : ModuleId) : Prop :=
  ∃ length ≤ bound, graph.LeadsIn sinks length id

theorem Within.mem_discover
    {bound : Nat}
    (within : graph.Within sinks bound id) :
    id ∈ graph.discover sinks := by
  obtain ⟨length, _, leads⟩ := within
  exact Graph.mem_discover.mpr (behind_iff_exists_leadsIn.mpr ⟨length, leads⟩)

theorem Within.of_feeds
    {bound : Nat}
    {producer consumer : ModuleId}
    (within : graph.Within sinks bound consumer)
    (feeds : graph.Feeds producer consumer) :
    graph.Within sinks (bound + 1) producer := by
  obtain ⟨length, bounded, leads⟩ := within
  exact ⟨length + 1, Nat.succ_le_succ bounded, .patch feeds leads⟩

theorem within_zero_iff :
    graph.Within sinks 0 id ↔ id ∈ graph.liveSinks sinks := by
  rw [mem_liveSinks]
  constructor
  · rintro ⟨length, bounded, leads⟩
    cases leads with
    | sink isSink isThere =>
        exact ⟨isSink, isThere⟩
    | patch =>
        exact absurd bounded (by simp)
  · rintro ⟨isSink, isThere⟩
    exact ⟨0, Nat.le_refl 0, .sink isSink isThere⟩

theorem within_succ_iff
    {bound : Nat} :
    graph.Within sinks (bound + 1) id ↔
      id ∈ graph.liveSinks sinks ∨
        ∃ consumer, graph.Feeds id consumer ∧ graph.Within sinks bound consumer := by
  constructor
  · rintro ⟨length, bounded, leads⟩
    cases leads with
    | sink isSink isThere =>
        exact Or.inl (mem_liveSinks.mpr ⟨isSink, isThere⟩)
    | patch feeds later =>
        exact Or.inr ⟨_, feeds, _, Nat.le_of_succ_le_succ bounded, later⟩
  · rintro (isLive | ⟨consumer, feeds, within⟩)
    · obtain ⟨_, leads⟩ := within_zero_iff.mpr isLive
      exact ⟨_, Nat.le_trans leads.1 (Nat.zero_le _), leads.2⟩
    · exact within.of_feeds feeds

/-- Modules that are near to a sink are found before those that are not. -/
theorem idxOf_lt_of_within
    {bound : Nat}
    {near far : ModuleId}
    (isNear : graph.Within sinks bound near)
    (isFound : far ∈ graph.discover sinks)
    (isFar : ¬ graph.Within sinks bound far) :
    (graph.discover sinks).idxOf near < (graph.discover sinks).idxOf far := by
  induction bound generalizing near far with
  | zero =>
      rw [within_zero_iff] at isNear isFar
      exact idxOf_lt_of_seen (liveSinks_first graph sinks) isNear isFar
  | succ bound inductionHypothesis =>
      rw [within_succ_iff, not_or] at isFar
      obtain ⟨farNotSink, farConsumers⟩ := isFar
      obtain ⟨farConsumer, found⟩ := exists_foundThrough isFound farNotSink
      obtain ⟨seen, mem_seen, _, isPrefix⟩ := exists_seen found.visited
      have nearSeen : near ∈ seen := by
        rw [mem_seen]
        rcases within_succ_iff.mp isNear with isLive | ⟨nearConsumer, feeds, within⟩
        · exact Or.inl isLive
        · have notWithin : ¬ graph.Within sinks bound farConsumer := fun known =>
            farConsumers ⟨farConsumer, found.feeds, known⟩
          exact Or.inr
            ⟨nearConsumer, inductionHypothesis within found.visited notWithin, feeds⟩
      exact idxOf_lt_of_seen ((List.prefix_append _ _).trans isPrefix) nearSeen
        (found.notMem mem_seen)

theorem isLeast_lengths
    (isFound : id ∈ graph.discover sinks) :
    IsLeast (graph.lengths sinks id) (sInf (graph.lengths sinks id)) :=
  ⟨Nat.sInf_mem (behind_iff_exists_leadsIn.mp (mem_discover.mp isFound)),
    fun _ leads => Nat.sInf_le leads⟩

/-- The shortest ways to a sink do not get shorter along the walk. -/
theorem pairwise_distance
    (graph : Graph U)
    (sinks : List ModuleId) :
    (graph.discover sinks).Pairwise fun first second =>
      sInf (graph.lengths sinks first) ≤ sInf (graph.lengths sinks second) := by
  refine (pairwise_idxOf (nodup_discover graph sinks)).imp_of_mem ?_
  intro first second firstFound secondFound before
  by_contra shorter
  have isNear : graph.Within sinks (sInf (graph.lengths sinks second)) second :=
    ⟨_, Nat.le_refl _, (isLeast_lengths secondFound).1⟩
  have isFar : ¬ graph.Within sinks (sInf (graph.lengths sinks second)) first := by
    rintro ⟨length, bounded, leads⟩
    exact shorter (Nat.le_trans ((isLeast_lengths firstFound).2 leads) bounded)
  exact absurd (idxOf_lt_of_within isNear firstFound isFar) (Nat.lt_asymm before)

end Distance

/-- A list of the modules behind some sinks as a walk finds them, nearest first. -/
structure BreadthFirst (graph : Graph U) (sinks discovery : List ModuleId) : Prop where
  /-- All modules that lead to a sink are found, no others, and each once. -/
  nodup : discovery.Nodup
  mem_iff :
    ∀ id, id ∈ discovery ↔ (graph.module? id).isSome ∧ graph.Behind sinks id
  /-- The sinks that are there come first, in their order and without repetitions. -/
  sinks_first :
    (sinks.filter fun sink => (graph.module? sink).isSome).eraseDups <+: discovery
  /-- The shortest ways to a sink do not get shorter along the list. -/
  nearest_first :
    ∃ distances : List Nat,
      List.Forall₂ (fun id => IsLeast (graph.lengths sinks id)) discovery distances ∧
        distances.Pairwise (· ≤ ·)
  /-- All others are found through some module, and after it. -/
  found :
    ∀ id ∈ discovery, id ∉ sinks →
      ∃ consumer,
        graph.FoundThrough sinks discovery id consumer ∧
          discovery.idxOf consumer < discovery.idxOf id
  /-- What is found through one module comes in the order of the first patches into it. -/
  siblings :
    ∀ producer other consumer,
      graph.FoundThrough sinks discovery producer consumer →
        graph.FoundThrough sinks discovery other consumer →
          (discovery.idxOf producer < discovery.idxOf other ↔
            graph.firstPatch producer consumer < graph.firstPatch other consumer)

theorem WellPatched.breadthFirst
    [UnitLike U]
    (wellPatched : graph.WellPatched)
    (sinks : List ModuleId) :
    graph.BreadthFirst sinks (graph.discover sinks) where
  nodup := nodup_discover graph sinks
  mem_iff id := by
    rw [mem_discover, iff_and_self]
    intro behind
    obtain ⟨unit, found⟩ := behind.unit?_isSome wellPatched
    obtain ⟨module, isModule, _⟩ := Option.map_eq_some_iff.mp found
    exact Option.isSome_of_mem isModule
  sinks_first := by
    have sinksFirst := liveSinks_first graph sinks
    rw [liveSinks, unseen_eq_eraseDups] at sinksFirst
    simpa using sinksFirst
  nearest_first := by
    refine ⟨(graph.discover sinks).map fun id => sInf (graph.lengths sinks id), ?_,
      List.pairwise_map.mpr (pairwise_distance graph sinks)⟩
    rw [List.forall₂_map_right_iff, List.forall₂_same]
    exact fun id => isLeast_lengths
  found id isFound notSink := by
    have notLive : id ∉ graph.liveSinks sinks := fun isLive => notSink (mem_liveSinks.mp isLive).1
    obtain ⟨consumer, found⟩ := exists_foundThrough isFound notLive
    exact ⟨consumer, found, found.idxOf_lt⟩
  siblings _ _ _ := FoundThrough.idxOf_lt_iff

/-- In every graph that operations build from either catalog, discovery is breadth first. -/
theorem catalogs_discoverBreadthFirst :
    (∀ (operations : List (Operation InstrumentUnit)) (sinks : List ModuleId),
        (empty.run operations).BreadthFirst sinks ((empty.run operations).discover sinks)) ∧
      ∀ (operations : List (Operation SequenceUnit)) (sinks : List ModuleId),
        (empty.run operations).BreadthFirst sinks ((empty.run operations).discover sinks) :=
  ⟨fun operations => (wellPatched_run operations).breadthFirst,
    fun operations => (wellPatched_run operations).breadthFirst⟩

/-- A filter that feeds itself and two outputs is found at the first, and once. -/
example :
    let operations : List (Operation InstrumentUnit) :=
      [.add .output .origin,
        .add .output .origin,
        .add (.ofWaveform .sine) .origin,
        .add (.ofMode .lowPass) .origin,
        .connect ⟨3, "OUT"⟩ ⟨0, "IN"⟩,
        .connect ⟨2, "OUT"⟩ ⟨0, "IN"⟩,
        .connect ⟨3, "OUT"⟩ ⟨1, "IN"⟩,
        .connect ⟨3, "OUT"⟩ ⟨3, "IN"⟩,
        .connect ⟨2, "OUT"⟩ ⟨3, "IN"⟩]
    (empty.run operations).discover [7, 1, 0, 1] = [1, 0, 3, 2] := by
  decide +kernel

end SynthGraph.Graph
