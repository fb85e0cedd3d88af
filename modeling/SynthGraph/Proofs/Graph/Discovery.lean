import SynthGraph.Graph.Discovery
import SynthGraph.Proofs.Graph.WellPatched

namespace SynthGraph.Graph

/-!
# What discovery finds

A module feeds another if a patch leads from it to the other.  Discovery finds,
each once, the modules from which some sink can be reached by following patches
(`mem_discover`, `nodup_discover`), and the feeders of a module that have not
been seen before stay together in patch order (`Walking.explored`).
-/

variable {U : Type}

/-- Some patch leads from the producer to the consumer. -/
def Feeds (graph : Graph U) (producer consumer : ModuleId) : Prop :=
  ∃ patch ∈ graph.patches, patch.source.module = producer ∧ patch.target.module = consumer

/-- Following patches from the module leads to a sink that is there. -/
def Behind (graph : Graph U) (sinks : List ModuleId) (id : ModuleId) : Prop :=
  ∃ sink ∈ sinks,
    (graph.module? sink).isSome ∧ Relation.ReflTransGen graph.Feeds id sink

theorem mem_feeders
    {graph : Graph U}
    {producer consumer : ModuleId} :
    producer ∈ graph.feeders consumer ↔ graph.Feeds producer consumer := by
  simp only [feeders, List.mem_map, List.mem_filter, Feeds, decide_eq_true_eq]
  constructor
  · rintro ⟨patch, ⟨member, target⟩, source⟩
    exact ⟨patch, member, source, target⟩
  · rintro ⟨patch, member, source, target⟩
    exact ⟨patch, ⟨member, target⟩, source⟩

/-- What feeds a module behind some sinks is behind them too. -/
theorem Behind.of_feeds
    {graph : Graph U}
    {sinks : List ModuleId}
    {producer consumer : ModuleId}
    (behind : graph.Behind sinks consumer)
    (feeds : graph.Feeds producer consumer) :
    graph.Behind sinks producer := by
  obtain ⟨sink, member, isThere, path⟩ := behind
  exact ⟨sink, member, isThere, path.head feeds⟩

theorem behind_singleton_iff
    {graph : Graph U}
    {sink id : ModuleId} :
    graph.Behind [sink] id ↔
      (graph.module? sink).isSome ∧ Relation.ReflTransGen graph.Feeds id sink := by
  simp [Behind]

section Unseen

variable {seen candidates : List ModuleId} {id : ModuleId}

theorem mem_unseen : id ∈ unseen seen candidates ↔ id ∈ candidates ∧ id ∉ seen := by
  induction candidates generalizing seen with
  | nil =>
      simp [unseen]
  | cons first rest inductionHypothesis =>
      by_cases known : first ∈ seen
      · rw [unseen, if_pos known, inductionHypothesis, List.mem_cons]
        constructor
        · rintro ⟨inRest, new⟩
          exact ⟨Or.inr inRest, new⟩
        · rintro ⟨isFirst | inRest, new⟩
          · exact absurd (isFirst ▸ known) new
          · exact ⟨inRest, new⟩
      · rw [unseen, if_neg known, List.mem_cons, inductionHypothesis, List.mem_cons]
        by_cases isFirst : id = first
        · simp [isFirst, known]
        · simp [isFirst]

theorem nodup_append_unseen
    (seenNodup : seen.Nodup) :
    (seen ++ unseen seen candidates).Nodup := by
  induction candidates generalizing seen with
  | nil =>
      simpa [unseen] using seenNodup
  | cons first rest inductionHypothesis =>
      rw [unseen]
      split
      · exact inductionHypothesis seenNodup
      · rename_i new
        have extended : (seen ++ [first]).Nodup :=
          List.nodup_append_comm.mp (List.nodup_cons.mpr ⟨new, seenNodup⟩)
        simpa using inductionHypothesis extended

/-- Candidates of which none is repeated or known are all unseen. -/
theorem unseen_eq_self
    (candidatesNodup : candidates.Nodup)
    (new : ∀ candidate ∈ candidates, candidate ∉ seen) :
    unseen seen candidates = candidates := by
  induction candidates generalizing seen with
  | nil =>
      rfl
  | cons first rest inductionHypothesis =>
      rw [List.nodup_cons] at candidatesNodup
      rw [unseen, if_neg (new first List.mem_cons_self)]
      congr 1
      apply inductionHypothesis candidatesNodup.2
      intro candidate member
      simp only [List.mem_append, List.mem_singleton, not_or]
      refine ⟨new candidate (List.mem_cons_of_mem _ member), ?_⟩
      rintro rfl
      exact candidatesNodup.1 member

end Unseen

/-- What holds of the modules visited and pending at every step holds in the end. -/
theorem walk_induction
    {graph : Graph U}
    {holds : List ModuleId → List ModuleId → Prop}
    (step :
      ∀ visited current pending,
        holds visited (current :: pending) →
        holds (visited ++ [current])
          (pending ++ unseen (visited ++ current :: pending) (graph.feeders current)))
    {visited pending : List ModuleId}
    (start : holds visited pending) :
    holds (graph.walk visited pending) [] := by
  induction visited, pending using walk.induct graph with
  | case1 visited =>
      rw [walk]
      exact start
  | case2 visited current pending seen inductionHypothesis =>
      rw [walk]
      exact inductionHypothesis (step visited current pending start)

/--
The state of a walk.  The list of all modules seen only grows at its end, so the
fact that the feeders of a visited module were appended in patch order stays true.
-/
structure Walking (graph : Graph U) (start visited pending : List ModuleId) : Prop where
  nodup : (visited ++ pending).Nodup
  start_prefix : start <+: visited ++ pending
  leads :
    ∀ id ∈ visited ++ pending,
      ∃ sink ∈ start, Relation.ReflTransGen graph.Feeds id sink
  found :
    ∀ id ∈ visited ++ pending,
      id ∈ start ∨ ∃ consumer ∈ visited, graph.Feeds id consumer
  explored :
    ∀ consumer ∈ visited,
      ∃ seen,
        (∀ id ∈ seen, id ∈ start ∨ ∃ other, other ≠ consumer ∧ graph.Feeds id other) ∧
          seen ++ unseen seen (graph.feeders consumer) <+: visited ++ pending

namespace Walking

variable {graph : Graph U} {start visited pending : List ModuleId}

theorem initial
    (startNodup : start.Nodup) :
    graph.Walking start [] start where
  nodup := startNodup
  start_prefix := List.prefix_rfl
  leads id member := ⟨id, member, .refl⟩
  found id member := Or.inl member
  explored consumer member := by
    simp at member

/-- Visiting one more module keeps all that is known of a walk. -/
theorem step
    {current : ModuleId}
    (walking : graph.Walking start visited (current :: pending)) :
    graph.Walking start (visited ++ [current])
      (pending ++ unseen (visited ++ current :: pending) (graph.feeders current)) := by
  have regroup :
      visited ++ [current] ++
          (pending ++ unseen (visited ++ current :: pending) (graph.feeders current)) =
        (visited ++ current :: pending) ++
          unseen (visited ++ current :: pending) (graph.feeders current) := by
    simp
  have grows :
      visited ++ current :: pending <+:
        visited ++ [current] ++
          (pending ++ unseen (visited ++ current :: pending) (graph.feeders current)) := by
    rw [regroup]
    exact List.prefix_append _ _
  have currentNew : current ∉ visited := by
    intro member
    exact (List.nodup_append.mp walking.nodup).2.2 current member current
      List.mem_cons_self rfl
  constructor
  · rw [regroup]
    exact nodup_append_unseen walking.nodup
  · exact walking.start_prefix.trans grows
  · intro id member
    rw [regroup, List.mem_append] at member
    rcases member with known | new
    · exact walking.leads id known
    · have feeds := mem_feeders.mp (mem_unseen.mp new).1
      obtain ⟨sink, isSink, path⟩ := walking.leads current (by simp)
      exact ⟨sink, isSink, path.head feeds⟩
  · intro id member
    rw [regroup, List.mem_append] at member
    rcases member with known | new
    · rcases walking.found id known with isStart | ⟨consumer, isVisited, feeds⟩
      · exact Or.inl isStart
      · exact Or.inr ⟨consumer, List.mem_append_left _ isVisited, feeds⟩
    · exact Or.inr ⟨current, by simp, mem_feeders.mp (mem_unseen.mp new).1⟩
  · intro consumer member
    rcases List.mem_append.mp member with isVisited | isCurrent
    · obtain ⟨seen, origin, isPrefix⟩ := walking.explored consumer isVisited
      exact ⟨seen, origin, isPrefix.trans grows⟩
    · obtain rfl := List.mem_singleton.mp isCurrent
      refine ⟨visited ++ consumer :: pending, ?_, ?_⟩
      · intro id seen
        rcases walking.found id seen with isStart | ⟨other, otherVisited, feeds⟩
        · exact Or.inl isStart
        · refine Or.inr ⟨other, ?_, feeds⟩
          rintro rfl
          exact currentNew otherVisited
      · rw [regroup]

/-- A walk that starts without repetition ends in a state like any other. -/
theorem of_walk
    (startNodup : start.Nodup) :
    graph.Walking start (graph.walk [] start) [] :=
  walk_induction (fun _ _ _ walking => walking.step) (initial startNodup)

/-- The producers of a visited module have been seen. -/
theorem closed
    (walking : graph.Walking start visited pending)
    {producer consumer : ModuleId}
    (isVisited : consumer ∈ visited)
    (feeds : graph.Feeds producer consumer) :
    producer ∈ visited ++ pending := by
  obtain ⟨seen, _, isPrefix⟩ := walking.explored consumer isVisited
  apply isPrefix.subset
  by_cases known : producer ∈ seen
  · exact List.mem_append_left _ known
  · exact List.mem_append_right _ (mem_unseen.mpr ⟨mem_feeders.mpr feeds, known⟩)

end Walking

section Discover

variable {graph : Graph U} {sinks : List ModuleId}

/-- The sinks that are there, without repetitions. -/
def liveSinks (graph : Graph U) (sinks : List ModuleId) : List ModuleId :=
  unseen [] (sinks.filter fun sink => (graph.module? sink).isSome)

theorem mem_liveSinks
    {sink : ModuleId} :
    sink ∈ graph.liveSinks sinks ↔ sink ∈ sinks ∧ (graph.module? sink).isSome := by
  simp [liveSinks, mem_unseen]

theorem walking_discover
    (graph : Graph U)
    (sinks : List ModuleId) :
    graph.Walking (graph.liveSinks sinks) (graph.discover sinks) [] :=
  Walking.of_walk (@nodup_append_unseen [] _ List.nodup_nil)

theorem nodup_discover
    (graph : Graph U)
    (sinks : List ModuleId) :
    (graph.discover sinks).Nodup := by
  simpa using (walking_discover graph sinks).nodup

/-- Discovery finds the modules behind the sinks and no others. -/
theorem mem_discover
    {id : ModuleId} :
    id ∈ graph.discover sinks ↔ graph.Behind sinks id := by
  have walking := walking_discover graph sinks
  constructor
  · intro member
    obtain ⟨sink, isLive, path⟩ := walking.leads id (List.mem_append_left _ member)
    obtain ⟨isSink, isThere⟩ := mem_liveSinks.mp isLive
    exact ⟨sink, isSink, isThere, path⟩
  · rintro ⟨sink, isSink, isThere, path⟩
    induction path using Relation.ReflTransGen.head_induction_on with
    | refl =>
        have seen := walking.start_prefix.subset (mem_liveSinks.mpr ⟨isSink, isThere⟩)
        simpa using seen
    | head feeds _ inductionHypothesis =>
        simpa using walking.closed inductionHypothesis feeds

/-- The producers of a discovered module are discovered. -/
theorem discover_closed
    {producer consumer : ModuleId}
    (member : consumer ∈ graph.discover sinks)
    (feeds : graph.Feeds producer consumer) :
    producer ∈ graph.discover sinks :=
  mem_discover.mpr ((mem_discover.mp member).of_feeds feeds)

/-- Modules that feed one module only are discovered in the order of their patches. -/
theorem feeders_sublist_discover
    {consumer : ModuleId}
    (member : consumer ∈ graph.discover sinks)
    (feedersNodup : (graph.feeders consumer).Nodup)
    (notSinks : ∀ feeder ∈ graph.feeders consumer, feeder ∉ sinks)
    (feedsOnly :
      ∀ feeder ∈ graph.feeders consumer, ∀ other, graph.Feeds feeder other → other = consumer) :
    (graph.feeders consumer).Sublist (graph.discover sinks) := by
  obtain ⟨seen, origin, isPrefix⟩ := (walking_discover graph sinks).explored consumer member
  have new : ∀ feeder ∈ graph.feeders consumer, feeder ∉ seen := by
    intro feeder isFeeder isSeen
    rcases origin feeder isSeen with isStart | ⟨other, different, feeds⟩
    · exact notSinks feeder isFeeder (mem_liveSinks.mp isStart).1
    · exact different (feedsOnly feeder isFeeder other feeds)
  rw [unseen_eq_self feedersNodup new, List.append_nil] at isPrefix
  exact (List.sublist_append_right _ _).trans isPrefix.sublist

end Discover

end SynthGraph.Graph
