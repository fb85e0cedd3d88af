import SynthGraph.Proofs.Graph.Cycles

namespace SynthGraph.Graph

/-!
# Sinks that feed nothing

Sinks are discovered first, so their ranks are the least.  If they feed nothing
and no cycle is around, they are compiled in reverse order
(`emission_filter_sinks`).  They need not be compiled last: one that waits for
nothing may go early, but only while everything above it has gone.
-/

variable {U : Type} {graph : Graph U} {discovery : List ModuleId}

/-- Behind what has not gone, something may go. -/
theorem exists_ready
    (discoveryNodup : discovery.Nodup)
    {gone : List Nat}
    {id : ModuleId}
    (grounded : Acc graph.Feeds id)
    {rank : Nat}
    (atRank : discovery[rank]? = some id)
    (notGone : rank ∉ gone) :
    ∃ ready producer,
      discovery[ready]? = some producer ∧
        ready ∉ gone ∧
        graph.unmet discovery gone ready = 0 ∧
        Relation.ReflTransGen graph.Feeds producer id := by
  induction grounded generalizing rank with
  | intro id _ inductionHypothesis =>
      by_cases isReady : graph.unmet discovery gone rank = 0
      · exact ⟨rank, id, atRank, notGone, isReady, .refl⟩
      · rw [unmet_eq_zero_iff discoveryNodup atRank] at isReady
        push Not at isReady
        obtain ⟨producer, other, feeds, atOther, otherNotGone⟩ := isReady
        obtain ⟨ready, first, atReady, readyNotGone, nothingOwed, path⟩ :=
          inductionHypothesis producer feeds atOther otherNotGone
        exact ⟨ready, first, atReady, readyNotGone, nothingOwed, path.tail feeds⟩

/-- Of ranks that feed nothing and lie below all that feed something, the greatest go first. -/
theorem Goes.pairwise_below
    (discoveryNodup : discovery.Nodup)
    (grounded : ∀ id ∈ discovery, Acc graph.Feeds id)
    (bound : Nat)
    (feedsNothing :
      ∀ rank < bound, ∀ id, discovery[rank]? = some id → ∀ consumer, ¬ graph.Feeds id consumer)
    {gone order : List Nat}
    (goes : graph.Goes discovery gone order) :
    (order.filter (· < bound)).Pairwise fun first second => second < first := by
  induction goes with
  | stop _ =>
      exact .nil
  | @next gone order first inside notGone _ isGreatest rest inductionHypothesis =>
      by_cases isBelow : first < bound
      · rw [List.filter_cons_of_pos (by simpa using isBelow), List.pairwise_cons]
        refine ⟨?_, inductionHypothesis⟩
        intro other member
        obtain ⟨otherInside, notIn⟩ := rest.rank_inside (List.mem_of_mem_filter member)
        rw [List.mem_append, List.mem_singleton, not_or] at notIn
        -- Something behind a greater rank could go now, and it is no less than that
        -- rank or feeds something, so it is greater than the one that goes.
        by_contra notLess
        have isGreater : first < other :=
          Nat.lt_of_le_of_ne (Nat.le_of_not_lt notLess) (Ne.symm notIn.2)
        have atOther := List.getElem?_eq_getElem otherInside
        obtain ⟨ready, producer, atReady, readyNotGone, nothingOwed, path⟩ :=
          exists_ready discoveryNodup (grounded _ (List.getElem_mem otherInside)) atOther notIn.1
        obtain ⟨readyInside, _⟩ := List.getElem?_eq_some_iff.mp atReady
        have noGreater := isGreatest ready readyInside readyNotGone nothingOwed
        rcases path.cases_head with rfl | ⟨consumer, feeds, _⟩
        · rw [← idxOf?_eq_some_iff_of_nodup discoveryNodup] at atReady atOther
          obtain rfl := Option.some.inj (atReady.symm.trans atOther)
          exact absurd isGreater (Nat.not_lt_of_le noGreater)
        · exact feedsNothing ready (noGreater.trans_lt isBelow) producer atReady consumer feeds
      · rw [List.filter_cons_of_neg (by simpa using isBelow)]
        exact inductionHypothesis

section Emission

variable
  {sinks : List ModuleId}
  (sinksNodup : sinks.Nodup)
  (live : ∀ sink ∈ sinks, (graph.module? sink).isSome)

include sinksNodup live

/-- Sinks are discovered first, in their order. -/
theorem sinks_prefix_discover : sinks <+: graph.discover sinks := by
  have allLive : graph.liveSinks sinks = sinks := by
    rw [liveSinks, List.filter_eq_self.mpr live]
    exact unseen_eq_self sinksNodup (by simp)
  have walking := walking_discover graph sinks
  have isPrefix := walking.start_prefix
  rwa [allLive, List.append_nil] at isPrefix

theorem getElem?_discover
    {rank : Nat}
    (isBelow : rank < sinks.length) :
    (graph.discover sinks)[rank]? = sinks[rank]? := by
  obtain ⟨rest, discovered⟩ := sinks_prefix_discover sinksNodup live
  rw [← discovered, List.getElem?_append_left isBelow]

/-- The ranks of sinks are the least ones. -/
theorem mem_sinks_iff_rank_lt
    {rank : Nat}
    {id : ModuleId}
    (atRank : (graph.discover sinks)[rank]? = some id) :
    id ∈ sinks ↔ rank < sinks.length := by
  constructor
  · intro isSink
    obtain ⟨other, atOther⟩ := List.getElem?_of_mem isSink
    obtain ⟨inside, _⟩ := List.getElem?_eq_some_iff.mp atOther
    have discoveryNodup := nodup_discover graph sinks
    rw [← getElem?_discover sinksNodup live inside] at atOther
    rw [← idxOf?_eq_some_iff_of_nodup discoveryNodup] at atRank atOther
    rwa [Option.some.inj (atRank.symm.trans atOther)]
  · intro isBelow
    rw [getElem?_discover sinksNodup live isBelow] at atRank
    exact List.mem_of_getElem? atRank

variable
  (acyclic : graph.AcyclicBehind sinks)
  (feedsNothing : ∀ sink ∈ sinks, ∀ consumer, ¬ graph.Feeds sink consumer)

include acyclic feedsNothing

theorem orderedRanks_filter_sinks :
    (graph.orderedRanks (graph.discover sinks)).filter (· < sinks.length) =
      (List.range sinks.length).reverse := by
  have discoveryNodup := nodup_discover graph sinks
  have grounded : ∀ id ∈ graph.discover sinks, Acc graph.Feeds id :=
    fun id member => acyclic.acc (mem_discover.mp member)
  have goes := goes_orderedRanks graph discoveryNodup
  have decreasing :=
    goes.pairwise_below discoveryNodup grounded sinks.length <| by
      intro rank isBelow id atRank
      exact feedsNothing id ((mem_sinks_iff_rank_lt sinksNodup live atRank).mpr isBelow)
  have reversed : (List.range sinks.length).reverse.Pairwise fun first second => second < first :=
    List.pairwise_reverse.mpr List.pairwise_lt_range
  apply List.Perm.eq_of_pairwise _ decreasing reversed
  · rw [List.perm_ext_iff_of_nodup (goes.nodup.filter _)
      (List.nodup_reverse.mpr List.nodup_range)]
    intro rank
    simp only [List.mem_filter, decide_eq_true_eq, List.mem_reverse, List.mem_range,
      and_iff_right_iff_imp]
    intro isBelow
    have atRank := getElem?_discover sinksNodup live isBelow
    rw [List.getElem?_eq_getElem isBelow] at atRank
    exact goes.rank_mem_of_acc discoveryNodup (grounded _ (List.mem_of_getElem? atRank)) atRank
  · intro first second _ _ isGreater isLess
    exact absurd isGreater (Nat.lt_asymm isLess)

/-- Where no cycle is around, sinks that feed nothing are compiled in reverse order. -/
theorem emission_filter_sinks :
    (graph.schedule sinks).emission.filter (· ∈ sinks) = sinks.reverse := by
  have emitted :
      (graph.schedule sinks).emission =
        (graph.orderedRanks (graph.discover sinks)).filterMap ((graph.discover sinks)[·]?) :=
    emissionOrder_eq_of_acc (nodup_discover graph sinks) fun id member =>
      acyclic.acc (mem_discover.mp member)
  have selected :
      ((graph.orderedRanks (graph.discover sinks)).filterMap ((graph.discover sinks)[·]?)).filter
          (· ∈ sinks) =
        ((graph.orderedRanks (graph.discover sinks)).filter (· < sinks.length)).filterMap
          ((graph.discover sinks)[·]?) := by
    rw [List.filter_filterMap, List.filterMap_filter]
    apply List.filterMap_congr
    intro rank _
    cases atRank : (graph.discover sinks)[rank]? with
    | none =>
        simp
    | some id =>
        simp [mem_sinks_iff_rank_lt sinksNodup live atRank, Option.filter]
  have sinksAgain :
      (List.range sinks.length).filterMap ((graph.discover sinks)[·]?) = sinks := by
    conv_rhs => rw [← filterMap_range_getElem? sinks]
    apply List.filterMap_congr
    intro rank member
    exact getElem?_discover sinksNodup live (List.mem_range.mp member)
  rw [emitted, selected, orderedRanks_filter_sinks sinksNodup live acyclic feedsNothing,
    List.filterMap_reverse, sinksAgain]

end Emission

end SynthGraph.Graph
