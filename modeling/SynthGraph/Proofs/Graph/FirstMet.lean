import SynthGraph.Proofs.Graph.BreadthFirst

namespace SynthGraph.Graph

/-!
# What is met at the sinks

The walk visits all sinks before anything else.  So it meets what is patched into
them in the order of the sinks, and at each sink in the order of its patches
(`sinks_feeders_first`).  Of some modules that all feed sinks it finds the one
first that comes first in this order (`find?_discover`).  Among what is patched
into a socket of a sink that is the first patch, if all of it leads to this socket
and later modules only (`find?_feeders_eq_head?`).
-/

section Unseen

variable {seen candidates : List ModuleId}

theorem unseen_append
    (seen first second : List ModuleId) :
    unseen seen (first ++ second) =
      unseen seen first ++ unseen (seen ++ unseen seen first) second := by
  induction first generalizing seen with
  | nil =>
      simp [unseen]
  | cons id rest inductionHypothesis =>
      rw [List.cons_append, unseen, unseen]
      split
      · exact inductionHypothesis seen
      · rw [inductionHypothesis, List.cons_append, List.append_assoc, List.singleton_append]

/-- What is looked for and was not seen before is found in the same place. -/
theorem find?_unseen
    {wanted : ModuleId → Bool}
    (areNew : ∀ id ∈ candidates, wanted id → id ∉ seen) :
    (unseen seen candidates).find? wanted = candidates.find? wanted := by
  induction candidates generalizing seen with
  | nil =>
      rfl
  | cons id rest inductionHypothesis =>
      rw [List.forall_mem_cons] at areNew
      rw [unseen]
      by_cases isWanted : wanted id
      · rw [if_neg (areNew.1 isWanted), List.find?_cons_of_pos isWanted,
          List.find?_cons_of_pos isWanted]
      · rw [List.find?_cons_of_neg isWanted]
        split
        · exact inductionHypothesis areNew.2
        · rw [List.find?_cons_of_neg isWanted]
          apply inductionHypothesis
          intro other member otherWanted isSeen
          rcases List.mem_append.mp isSeen with before | isId
          · exact areNew.2 other member otherWanted before
          · obtain rfl := List.mem_singleton.mp isId
            exact isWanted otherWanted

end Unseen

variable {U : Type} {graph : Graph U} {sinks : List ModuleId}

/-- What is seen after several visits, in order. -/
theorem foldl_see
    (start modules : List ModuleId) :
    modules.foldl graph.see start = start ++ unseen start (modules.flatMap graph.feeders) := by
  induction modules generalizing start with
  | nil =>
      simp [unseen]
  | cons current rest inductionHypothesis =>
      rw [List.foldl_cons, inductionHypothesis, List.flatMap_cons, unseen_append, see,
        List.append_assoc]

/-- After the sinks the walk finds what feeds them, sink by sink and patch by patch. -/
theorem sinks_feeders_first
    (graph : Graph U)
    (sinks : List ModuleId) :
    graph.liveSinks sinks ++
        unseen (graph.liveSinks sinks) ((graph.liveSinks sinks).flatMap graph.feeders) <+:
      graph.discover sinks := by
  obtain ⟨rest, visited⟩ := liveSinks_first graph sinks
  have seen := (seeing_discover graph sinks).seen
  rw [List.append_nil] at seen
  nth_rewrite 2 [← visited] at seen
  rw [List.foldl_append] at seen
  rw [← foldl_see, seen]
  exact prefix_foldl_see _ rest

/-- Of modules that feed sinks, the one that is met first at the sinks is found first. -/
theorem find?_discover
    {wanted : ModuleId → Bool}
    (notSinks : ∀ id, wanted id → id ∉ graph.liveSinks sinks)
    (feedSinks : ∀ id, wanted id → ∃ sink ∈ graph.liveSinks sinks, graph.Feeds id sink) :
    (graph.discover sinks).find? wanted =
      ((graph.liveSinks sinks).flatMap graph.feeders).find? wanted := by
  obtain ⟨rest, found⟩ := sinks_feeders_first graph sinks
  have noSink : (graph.liveSinks sinks).find? wanted = none :=
    List.find?_eq_none.mpr fun id isSink isWanted => notSinks id isWanted isSink
  rw [← found, List.find?_append, List.find?_append, noSink, Option.none_or,
    find?_unseen fun id _ => notSinks id]
  cases met : ((graph.liveSinks sinks).flatMap graph.feeders).find? wanted with
  | some id =>
      rfl
  | none =>
      -- Whatever is looked for feeds a sink, so it would have been met there.
      rw [Option.none_or, List.find?_eq_none]
      intro id _ isWanted
      obtain ⟨sink, isSink, feeds⟩ := feedSinks id isWanted
      have isMet : id ∈ (graph.liveSinks sinks).flatMap graph.feeders :=
        List.mem_flatMap.mpr ⟨sink, isSink, mem_feeders.mpr feeds⟩
      exact List.find?_eq_none.mp met id isMet isWanted

section OnlyLater

variable
  {endpoint : Endpoint}
  (onlyLater :
    ∀ patch ∈ graph.patches,
      patch.source.module ∈ graph.producersInto endpoint →
        patch.target = endpoint ∨ endpoint.module < patch.target.module)

include onlyLater

/-- Modules before the one of the socket are fed by nothing that is patched into it. -/
theorem find?_feeders_eq_none
    {modules : List ModuleId}
    (areBefore : ∀ id ∈ modules, id < endpoint.module) :
    (modules.flatMap graph.feeders).find? (· ∈ graph.producersInto endpoint) = none := by
  rw [List.find?_eq_none]
  intro producer isMet producerHere
  obtain ⟨earlier, isBefore, feedsEarlier⟩ := List.mem_flatMap.mp isMet
  obtain ⟨patch, isPatch, rfl, rfl⟩ := mem_feeders.mp feedsEarlier
  have isLess := areBefore _ isBefore
  rcases onlyLater patch isPatch (of_decide_eq_true producerHere) with here | later
  · rw [here] at isLess
    exact absurd isLess (Nat.lt_irrefl endpoint.module)
  · exact absurd isLess (Nat.lt_asymm later)

/-- All patches from these producers to the module of the socket go into the socket. -/
theorem filter_patches_eq :
    (graph.patches.filter (·.target.module = endpoint.module)).filter
        (·.source.module ∈ graph.producersInto endpoint) =
      graph.patches.filter (·.target = endpoint) := by
  rw [List.filter_filter]
  apply List.filter_congr
  intro patch isPatch
  rw [Bool.eq_iff_iff, Bool.and_eq_true]
  simp only [decide_eq_true_eq]
  constructor
  · rintro ⟨producerHere, isHere⟩
    rcases onlyLater patch isPatch producerHere with isTarget | later
    · exact isTarget
    · exact absurd (isHere ▸ later) (Nat.lt_irrefl endpoint.module)
  · intro isTarget
    exact ⟨mem_producersInto.mpr ⟨patch, isPatch, isTarget, rfl⟩,
      congrArg Endpoint.module isTarget⟩

/-- At the module of the socket the first patch into the socket is met first. -/
theorem find?_feeders_eq_head? :
    (graph.feeders endpoint.module).find? (· ∈ graph.producersInto endpoint) =
      (graph.producersInto endpoint).head? := by
  calc
    (graph.feeders endpoint.module).find? (· ∈ graph.producersInto endpoint) =
        ((graph.patches.filter (·.target.module = endpoint.module)).filter
          (·.source.module ∈ graph.producersInto endpoint)).head?.map (·.source.module) := by
      rw [feeders, List.find?_map, List.head?_filter]
      rfl
    _ = (graph.patches.filter (·.target = endpoint)).head?.map (·.source.module) := by
      rw [filter_patches_eq onlyLater]
    _ = (graph.producersInto endpoint).head? := List.head?_map.symm

end OnlyLater

end SynthGraph.Graph
