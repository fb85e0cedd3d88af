import SynthGraph.Graph.Schedule
import SynthGraph.Proofs.Graph.Discovery

namespace SynthGraph

/-!
# Counting down patches

Releasing ranks lowers their counts, and a rank becomes ready when its count
reaches zero.  Over a graph the count of a rank is the number of patches that
lead to it from discovered modules that have not gone yet (`Tracks`), so the
countdown picks, again and again, the greatest rank of which all producers have
gone (`Goes`).
-/

namespace Countdown

theorem waiting_release
    (countdown : Countdown)
    (rank other : Nat) :
    (countdown.release rank).waiting[other]? =
      countdown.waiting[other]?.map fun count =>
        if other = rank then count - 1 else count := by
  unfold release
  split
  · rename_i rest found
    by_cases same : other = rank
    · subst same
      obtain ⟨inside, isValue⟩ := List.getElem?_eq_some_iff.mp found
      simp [inside, isValue]
    · simp [Ne.symm same, same]
  · rename_i notPositive
    by_cases same : other = rank
    · subst same
      cases found : countdown.waiting[other]? with
      | none =>
          simp
      | some count =>
          cases count with
          | zero =>
              simp
          | succ rest =>
              exact absurd found (notPositive rest)
    · simp [same]

theorem mem_ready_release
    (countdown : Countdown)
    (rank other : Nat) :
    other ∈ (countdown.release rank).ready ↔
      other ∈ countdown.ready ∨ other = rank ∧ countdown.waiting[rank]? = some 1 := by
  unfold release
  split
  · rename_i rest found
    by_cases last : rest = 0
    · simp [last, found]
    · simp [last, found]
  · rename_i notPositive
    have notOne := notPositive 0
    simp_all

/-- A rank is ready once, and only after it has stopped waiting. -/
def Settled (countdown : Countdown) : Prop :=
  countdown.ready.Nodup ∧ ∀ rank ∈ countdown.ready, countdown.waiting[rank]? = some 0

theorem Settled.release
    {countdown : Countdown}
    (settled : countdown.Settled)
    (rank : Nat) :
    (countdown.release rank).Settled := by
  constructor
  · unfold Countdown.release
    split
    · rename_i rest found
      split
      · have notReady : rank ∉ countdown.ready := by
          intro isReady
          rw [settled.2 rank isReady] at found
          simp at found
        exact List.nodup_append_comm.mp (List.nodup_cons.mpr ⟨notReady, settled.1⟩)
      · exact settled.1
    · exact settled.1
  · intro other isReady
    rw [waiting_release]
    rcases (mem_ready_release countdown rank other).mp isReady with wasReady | ⟨rfl, isLast⟩
    · simp [settled.2 other wasReady]
    · simp [isLast]

section ReleaseAll

variable (countdown : Countdown) (ranks : List Nat)

theorem waiting_releaseAll
    (other : Nat) :
    (countdown.releaseAll ranks).waiting[other]? =
      countdown.waiting[other]?.map (· - ranks.count other) := by
  unfold releaseAll
  induction ranks generalizing countdown with
  | nil =>
      simp
  | cons rank rest inductionHypothesis =>
      rw [List.foldl_cons, inductionHypothesis, waiting_release, Option.map_map]
      congr 1
      funext count
      by_cases same : other = rank
      · subst same
        simp only [Function.comp_apply, if_true, List.count_cons_self]
        omega
      · simp [same, List.count_cons_of_ne (Ne.symm same)]

/-- A rank becomes ready when it is released as often as it waits. -/
theorem mem_ready_releaseAll
    (other : Nat) :
    other ∈ (countdown.releaseAll ranks).ready ↔
      other ∈ countdown.ready ∨
        ∃ count,
          countdown.waiting[other]? = some count ∧ 0 < count ∧ count ≤ ranks.count other := by
  unfold releaseAll
  induction ranks generalizing countdown with
  | nil =>
      simp only [List.foldl_nil, List.count_nil]
      constructor
      · exact Or.inl
      · rintro (isReady | ⟨count, _, positive, bounded⟩)
        · exact isReady
        · omega
  | cons rank rest inductionHypothesis =>
      rw [List.foldl_cons, inductionHypothesis, mem_ready_release, waiting_release]
      by_cases same : other = rank
      · subst same
        simp only [true_and, if_true, Option.map_eq_some_iff, List.count_cons_self]
        constructor
        · rintro ((isReady | isLast) | ⟨_, ⟨count, found, rfl⟩, positive, bounded⟩)
          · exact Or.inl isReady
          · exact Or.inr ⟨1, isLast, by omega, by omega⟩
          · exact Or.inr ⟨count, found, by omega, by omega⟩
        · rintro (isReady | ⟨count, found, positive, bounded⟩)
          · exact Or.inl (Or.inl isReady)
          · by_cases isLast : count = 1
            · exact Or.inl (Or.inr (isLast ▸ found))
            · exact Or.inr ⟨count - 1, ⟨count, found, rfl⟩, by omega, by omega⟩
      · simp [same, List.count_cons_of_ne (Ne.symm same)]

theorem Settled.releaseAll
    {countdown : Countdown}
    (settled : countdown.Settled) :
    (countdown.releaseAll ranks).Settled := by
  unfold Countdown.releaseAll
  induction ranks generalizing countdown with
  | nil =>
      exact settled
  | cons rank rest inductionHypothesis =>
      exact inductionHypothesis (settled.release rank)

end ReleaseAll

theorem next?_some
    {countdown rest : Countdown}
    {rank : Nat}
    (taken : countdown.next? = some (rank, rest)) :
    rank ∈ countdown.ready ∧
      (∀ other ∈ countdown.ready, other ≤ rank) ∧
      rest = { countdown with ready := countdown.ready.erase rank } := by
  unfold next? at taken
  split at taken
  · rename_i greatest isMax
    simp only [Option.some.injEq, Prod.mk.injEq] at taken
    obtain ⟨rfl, rfl⟩ := taken
    obtain ⟨member, isBound⟩ := List.max?_eq_some_iff.mp isMax
    exact ⟨member, isBound, rfl⟩
  · cases taken

theorem next?_eq_none_iff
    {countdown : Countdown} :
    countdown.next? = none ↔ countdown.ready = [] := by
  unfold next?
  split
  · rename_i greatest isMax
    simp only [reduceCtorEq, false_iff]
    intro isEmpty
    simp [isEmpty] at isMax
  · rename_i isNone
    simpa using isNone

end Countdown

namespace Graph

variable {U : Type} (graph : Graph U) (discovery : List ModuleId)

/-- The patches to a rank from discovered modules that have not gone. -/
def owed (gone : List Nat) (rank : Nat) (patch : Patch) : Bool :=
  discovery.idxOf? patch.target.module = some rank &&
    (discovery.idxOf? patch.source.module).any (· ∉ gone)

/-- How many patches a rank still waits for. -/
def unmet (gone : List Nat) (rank : Nat) : Nat :=
  graph.patches.countP (owed discovery gone rank)

/-- A countdown agrees with the patches of the ranks that have gone. -/
structure Tracks (gone : List Nat) (countdown : Countdown) : Prop where
  waiting :
    ∀ rank,
      countdown.waiting[rank]? =
        if rank < discovery.length then some (graph.unmet discovery gone rank) else none
  ready :
    ∀ rank,
      rank ∈ countdown.ready ↔
        rank < discovery.length ∧ rank ∉ gone ∧ graph.unmet discovery gone rank = 0
  ready_nodup : countdown.ready.Nodup
  gone_unmet : ∀ rank ∈ gone, graph.unmet discovery gone rank = 0

/--
Ranks go one after the other.  The next is the greatest of those that have not
gone and wait for nothing, and the rest stays when all of it waits.
-/
inductive Goes : List Nat → List Nat → Prop where
  | stop {gone : List Nat} :
      (∀ rank < discovery.length, rank ∉ gone → graph.unmet discovery gone rank ≠ 0) →
      Goes gone []
  | next {gone order : List Nat} {rank : Nat} :
      rank < discovery.length →
      rank ∉ gone →
      graph.unmet discovery gone rank = 0 →
      (∀ other < discovery.length,
        other ∉ gone → graph.unmet discovery gone other = 0 → other ≤ rank) →
      Goes (gone ++ [rank]) order →
      Goes gone (rank :: order)

variable {graph discovery}

/-- In a list without repetition a module stands at one rank. -/
theorem idxOf?_eq_some_iff_of_nodup
    (discoveryNodup : discovery.Nodup)
    {id : ModuleId}
    {rank : Nat} :
    discovery.idxOf? id = some rank ↔ discovery[rank]? = some id := by
  rw [List.idxOf?_eq_some_iff, List.getElem?_eq_some_iff]
  constructor
  · rintro ⟨inside, isThere, _⟩
    exact ⟨inside, isThere⟩
  · rintro ⟨inside, isThere⟩
    refine ⟨inside, isThere, ?_⟩
    intro earlier before same
    have sameRank : earlier = rank :=
      (List.Nodup.getElem_inj_iff discoveryNodup).mp (same.trans isThere.symm)
    omega

/-- Two tests of which exactly one holds where a third does count as much as the third. -/
private theorem countP_eq_add
    {items : List Patch}
    {test first second : Patch → Bool}
    (splits :
      ∀ item ∈ items, (test item).toNat = (first item).toNat + (second item).toNat) :
    items.countP test = items.countP first + items.countP second := by
  induction items with
  | nil =>
      rfl
  | cons item rest inductionHypothesis =>
      have here := splits item List.mem_cons_self
      have later :=
        inductionHypothesis fun other member => splits other (List.mem_cons_of_mem _ member)
      simp only [List.countP_cons]
      cases isTest : test item <;> cases isFirst : first item <;>
        cases isSecond : second item <;> simp_all <;> omega

/-- A rank that goes takes the patches to its targets with it. -/
theorem unmet_append
    (graph : Graph U)
    (discoveryNodup : discovery.Nodup)
    {gone : List Nat}
    {rank : Nat}
    {id : ModuleId}
    (atRank : discovery[rank]? = some id)
    (notGone : rank ∉ gone)
    (other : Nat) :
    graph.unmet discovery gone other =
      graph.unmet discovery (gone ++ [rank]) other +
        (graph.targetRanks discovery id).count other := by
  unfold unmet targetRanks
  rw [List.count_filterMap, List.countP_filter]
  apply countP_eq_add
  intro patch _
  by_cases isTarget : discovery.idxOf? patch.target.module = some other
  · by_cases isSource : patch.source.module = id
    · have sourceRank := (idxOf?_eq_some_iff_of_nodup discoveryNodup).mpr atRank
      simp [owed, isTarget, isSource, sourceRank, notGone]
    · cases sourceRank : discovery.idxOf? patch.source.module with
      | none =>
          simp [owed, isTarget, isSource, sourceRank]
      | some producer =>
          have different : producer ≠ rank := by
            rintro rfl
            have isThere := (idxOf?_eq_some_iff_of_nodup discoveryNodup).mp sourceRank
            rw [atRank, Option.some.injEq] at isThere
            exact isSource isThere.symm
          simp [owed, isTarget, isSource, sourceRank, different]
  · simp [owed, isTarget, beq_eq_false_iff_ne.mpr isTarget]

/-- Before anything goes the countdown agrees with the patches. -/
theorem tracks_countdown
    (discoveryNodup : discovery.Nodup) :
    graph.Tracks discovery [] (graph.countdown discovery) := by
  have counts :
      ∀ rank id, discovery[rank]? = some id →
        graph.waitingFor discovery id = graph.unmet discovery [] rank := by
    intro rank id atRank
    unfold waitingFor unmet
    apply List.countP_congr
    intro patch _
    have isTarget :
        patch.target.module = id ↔ discovery.idxOf? patch.target.module = some rank := by
      rw [idxOf?_eq_some_iff_of_nodup discoveryNodup, atRank, Option.some.injEq, eq_comm]
    have isSource :
        patch.source.module ∈ discovery ↔
          ∃ producer, discovery.idxOf? patch.source.module = some producer := by
      rw [← List.isSome_idxOf?, Option.isSome_iff_exists]
    simp [owed, isTarget, isSource]
  have waiting :
      ∀ rank,
        (graph.countdown discovery).waiting[rank]? =
          if rank < discovery.length then some (graph.unmet discovery [] rank) else none := by
    intro rank
    simp only [countdown, List.getElem?_map]
    split
    · rename_i inside
      have atRank := List.getElem?_eq_getElem inside
      rw [atRank, Option.map_some, counts rank _ atRank]
    · rename_i outside
      rw [List.getElem?_eq_none (Nat.le_of_not_lt outside), Option.map_none]
  refine ⟨waiting, ?_, List.nodup_range.filter _, by simp⟩
  · intro rank
    have count := waiting rank
    simp only [countdown] at count
    simp only [countdown, List.mem_filter, List.mem_range, List.length_map, count,
      decide_eq_true_eq, List.not_mem_nil, not_false_eq_true, true_and]
    constructor
    · rintro ⟨inside, isZero⟩
      exact ⟨inside, by simpa [inside] using isZero⟩
    · rintro ⟨inside, isZero⟩
      exact ⟨inside, by simpa [inside] using isZero⟩

theorem Tracks.settled
    {gone : List Nat}
    {countdown : Countdown}
    (tracks : graph.Tracks discovery gone countdown) :
    countdown.Settled := by
  refine ⟨tracks.ready_nodup, ?_⟩
  intro rank isReady
  obtain ⟨inside, _, isZero⟩ := (tracks.ready rank).mp isReady
  rw [tracks.waiting, if_pos inside, isZero]

/-- When a rank goes, the countdown keeps agreeing with the patches. -/
theorem Tracks.next
    (discoveryNodup : discovery.Nodup)
    {gone : List Nat}
    {countdown rest : Countdown}
    {rank : Nat}
    {id : ModuleId}
    (tracks : graph.Tracks discovery gone countdown)
    (taken : countdown.next? = some (rank, rest))
    (atRank : discovery[rank]? = some id) :
    graph.Tracks discovery (gone ++ [rank])
      (rest.releaseAll (graph.targetRanks discovery id)) := by
  obtain ⟨isReady, _, rfl⟩ := Countdown.next?_some taken
  obtain ⟨_, notGone, nothingOwed⟩ := (tracks.ready rank).mp isReady
  have splits := unmet_append graph discoveryNodup atRank notGone
  have settled : Countdown.Settled { countdown with ready := countdown.ready.erase rank } := by
    refine ⟨tracks.ready_nodup.erase rank, ?_⟩
    intro other member
    exact tracks.settled.2 other (List.mem_of_mem_erase member)
  refine ⟨?_, ?_, (settled.releaseAll _).1, ?_⟩
  · intro other
    rw [Countdown.waiting_releaseAll, tracks.waiting]
    split
    · rw [Option.map_some, splits other, Nat.add_sub_cancel]
    · rfl
  · intro other
    rw [Countdown.mem_ready_releaseAll, tracks.ready_nodup.mem_erase_iff, tracks.ready,
      tracks.waiting, List.mem_append, List.mem_singleton]
    have split := splits other
    constructor
    · rintro (⟨different, inside, otherNotGone, isZero⟩ | ⟨count, isCount, positive, bounded⟩)
      · exact ⟨inside, by simp [otherNotGone, different], by omega⟩
      · split at isCount
        · rename_i inside
          simp only [Option.some.injEq] at isCount
          refine ⟨inside, ?_, by omega⟩
          rintro (isGone | rfl)
          · have wasZero := tracks.gone_unmet other isGone
            omega
          · omega
        · cases isCount
    · rintro ⟨inside, notIn, isZero⟩
      rw [not_or] at notIn
      by_cases wasZero : graph.unmet discovery gone other = 0
      · exact Or.inl ⟨notIn.2, inside, notIn.1, wasZero⟩
      · refine Or.inr ⟨graph.unmet discovery gone other, if_pos inside, ?_, ?_⟩ <;> omega
  · intro other member
    have split := splits other
    rcases List.mem_append.mp member with isGone | isRank
    · have wasZero := tracks.gone_unmet other isGone
      omega
    · obtain rfl := List.mem_singleton.mp isRank
      omega

/-- The countdown lets ranks go in the order of the rules. -/
theorem goes_run
    (discoveryNodup : discovery.Nodup)
    {leadsTo : Nat → List Nat}
    (follows :
      ∀ rank id, discovery[rank]? = some id → leadsTo rank = graph.targetRanks discovery id)
    (gone : List Nat)
    {countdown : Countdown}
    (tracks : graph.Tracks discovery gone countdown) :
    graph.Goes discovery gone (Countdown.run leadsTo countdown) := by
  induction countdown using Countdown.run.induct leadsTo generalizing gone with
  | case1 countdown isDone =>
      rw [Countdown.run, isDone]
      apply Goes.stop
      intro rank inside notGone isZero
      have isReady := (tracks.ready rank).mpr ⟨inside, notGone, isZero⟩
      rw [Countdown.next?_eq_none_iff.mp isDone] at isReady
      cases isReady
  | case2 countdown rank rest taken inductionHypothesis =>
      rw [Countdown.run, taken]
      obtain ⟨isReady, isGreatest, _⟩ := Countdown.next?_some taken
      obtain ⟨inside, notGone, nothingOwed⟩ := (tracks.ready rank).mp isReady
      have atRank := List.getElem?_eq_getElem inside
      have follows := follows rank _ atRank
      apply Goes.next inside notGone nothingOwed
      · intro other otherInside otherNotGone isZero
        exact isGreatest other ((tracks.ready other).mpr ⟨otherInside, otherNotGone, isZero⟩)
      · apply inductionHypothesis
        rw [follows]
        exact tracks.next discoveryNodup taken atRank

end Graph

end SynthGraph
