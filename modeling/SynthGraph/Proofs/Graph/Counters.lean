import SynthGraph.Proofs.Graph.CompileOrder

namespace SynthGraph

/-!
# The counters of the compile order

A countdown takes one rank after the other and releases, one by one, the ranks
that it leads to (`Countdown.Reaches`).  At every such step the counter of a rank
is the number of patches to its module from modules that are not compiled yet,
and of those that are about to be released (`Graph.Counting`).  So whatever is
released is waited for, and no counter is ever lowered below zero
(`Graph.schedule_countsSafely`).
-/

namespace Countdown

/--
How far a countdown has come: the ranks that have gone, those that the last of
them still has to release, and what is left to count down.
-/
inductive Reaches (leadsTo : Nat → List Nat) (start : Countdown) :
    List Nat → List Nat → Countdown → Prop where
  | start : Reaches leadsTo start [] [] start
  | take {gone : List Nat} {rank : Nat} {countdown rest : Countdown} :
      Reaches leadsTo start gone [] countdown →
      countdown.next? = some (rank, rest) →
      Reaches leadsTo start (gone ++ [rank]) (leadsTo rank) rest
  | release {gone releasing : List Nat} {rank : Nat} {countdown : Countdown} :
      Reaches leadsTo start gone (rank :: releasing) countdown →
      Reaches leadsTo start gone releasing (countdown.release rank)

namespace Reaches

variable
  {leadsTo : Nat → List Nat}
  {start countdown : Countdown}
  {gone releasing : List Nat}

/-- Several ranks are released one by one. -/
theorem releaseAll
    (ranks : List Nat)
    (reaches : Reaches leadsTo start gone (ranks ++ releasing) countdown) :
    Reaches leadsTo start gone releasing (countdown.releaseAll ranks) := by
  induction ranks generalizing countdown with
  | nil =>
      exact reaches
  | cons rank rest inductionHypothesis =>
      exact inductionHypothesis reaches.release

/-- Whatever is released is led to by a rank that has gone. -/
theorem exists_leadsTo
    (reaches : Reaches leadsTo start gone releasing countdown)
    {rank : Nat}
    (member : rank ∈ releasing) :
    ∃ last ∈ gone, rank ∈ leadsTo last := by
  induction reaches with
  | start =>
      cases member
  | take _ _ _ =>
      exact ⟨_, List.mem_append_right _ List.mem_cons_self, member⟩
  | release _ inductionHypothesis =>
      exact inductionHypothesis (List.mem_cons_of_mem _ member)

/-- What is reached is part of the run that goes on from it. -/
theorem append_run
    (reaches : Reaches leadsTo start gone releasing countdown) :
    gone ++ run leadsTo (countdown.releaseAll releasing) = run leadsTo start := by
  -- The run goes on once all is released, so releasing one rank of them changes nothing.
  induction reaches with
  | start =>
      rfl
  | @take gone rank countdown rest _ taken inductionHypothesis =>
      have goesOn :
          run leadsTo countdown = rank :: run leadsTo (rest.releaseAll (leadsTo rank)) := by
        rw [run, taken]
      rw [List.append_assoc, List.singleton_append, ← goesOn]
      exact inductionHypothesis
  | release _ inductionHypothesis =>
      exact inductionHypothesis

end Reaches

/-- The beginnings of a run are what is reached between two of its ranks. -/
theorem run_eq_append_iff
    {leadsTo : Nat → List Nat}
    {start : Countdown}
    {before after : List Nat} :
    run leadsTo start = before ++ after ↔
      ∃ countdown,
        Reaches leadsTo start before [] countdown ∧ run leadsTo countdown = after := by
  constructor
  · intro splits
    induction before using List.reverseRecOn generalizing after with
    | nil =>
        exact ⟨start, .start, splits⟩
    | append_singleton before rank inductionHypothesis =>
        rw [List.append_assoc, List.singleton_append] at splits
        obtain ⟨countdown, reaches, goesOn⟩ := inductionHypothesis splits
        rw [run] at goesOn
        split at goesOn
        · cases goesOn
        · rename_i first rest taken
          obtain ⟨isFirst, isAfter⟩ := List.cons.inj goesOn
          subst isFirst
          refine ⟨rest.releaseAll (leadsTo first), ?_, isAfter⟩
          apply Reaches.releaseAll
          rw [List.append_nil]
          exact reaches.take taken
  · rintro ⟨countdown, reaches, rfl⟩
    exact reaches.append_run.symm

end Countdown

namespace Graph

variable {U : Type}

/-- The ranks that the module at a rank leads to, once for every patch. -/
def leadsTo (graph : Graph U) (discovery : List ModuleId) (rank : Nat) : List Nat :=
  match discovery[rank]? with
  | some id => graph.targetRanks discovery id
  | none => []

/-- How many patches lead to a module from modules that are not compiled yet. -/
def awaited (graph : Graph U) (compiled : List ModuleId) (id : ModuleId) : Nat :=
  graph.patches.countP fun patch =>
    patch.target.module = id && patch.source.module ∉ compiled

/-- How far the compile order of a list of modules has come. -/
def Compiles
    (graph : Graph U)
    (discovery : List ModuleId)
    (gone releasing : List Nat)
    (countdown : Countdown) :
    Prop :=
  Countdown.Reaches (graph.leadsTo discovery) (graph.countdown discovery) gone releasing
    countdown

/-- A countdown agrees with the patches of the ranks that have gone and are released. -/
structure Counting
    (graph : Graph U)
    (discovery : List ModuleId)
    (gone releasing : List Nat)
    (countdown : Countdown) :
    Prop where
  waiting :
    ∀ rank,
      countdown.waiting[rank]? =
        if rank < discovery.length then
          some (graph.unmet discovery gone rank + releasing.count rank)
        else
          none
  -- Ranks may be taken again once all is released.
  tracks : graph.Tracks discovery gone (countdown.releaseAll releasing)

variable {graph : Graph U} {discovery : List ModuleId}

theorem leadsTo_of_getElem?
    {rank : Nat}
    {id : ModuleId}
    (atRank : discovery[rank]? = some id) :
    graph.leadsTo discovery rank = graph.targetRanks discovery id := by
  simp only [leadsTo, atRank]

/-- Patches lead to ranks of the list. -/
theorem lt_length_of_mem_leadsTo
    {rank target : Nat}
    (member : target ∈ graph.leadsTo discovery rank) :
    target < discovery.length := by
  unfold leadsTo at member
  split at member
  · obtain ⟨_, _, isTarget⟩ := List.mem_filterMap.mp member
    exact (List.idxOf?_eq_some_iff.mp isTarget).1
  · cases member

namespace Counting

variable {gone releasing : List Nat} {countdown : Countdown} {rank : Nat}

theorem initial
    (discoveryNodup : discovery.Nodup) :
    graph.Counting discovery [] [] (graph.countdown discovery) where
  waiting := (tracks_countdown discoveryNodup).waiting
  tracks := tracks_countdown discoveryNodup

/-- When a rank is taken, what it leads to counts as released from then on. -/
theorem take
    (discoveryNodup : discovery.Nodup)
    {rest : Countdown}
    (counting : graph.Counting discovery gone [] countdown)
    (taken : countdown.next? = some (rank, rest)) :
    graph.Counting discovery (gone ++ [rank]) (graph.leadsTo discovery rank) rest := by
  obtain ⟨isReady, _, isRest⟩ := Countdown.next?_some taken
  obtain ⟨inside, notGone, _⟩ := (counting.tracks.ready rank).mp isReady
  have atRank := List.getElem?_eq_getElem inside
  rw [leadsTo_of_getElem? atRank]
  refine ⟨?_, counting.tracks.next discoveryNodup taken atRank⟩
  intro other
  have splits := unmet_append graph discoveryNodup atRank notGone other
  rw [isRest, counting.waiting, List.count_nil, Nat.add_zero, splits]

/-- A rank that is released waits for one patch fewer. -/
theorem release
    (counting : graph.Counting discovery gone (rank :: releasing) countdown) :
    graph.Counting discovery gone releasing (countdown.release rank) := by
  refine ⟨?_, counting.tracks⟩
  intro other
  rw [Countdown.waiting_release, counting.waiting]
  by_cases inside : other < discovery.length
  · rw [if_pos inside, if_pos inside, Option.map_some]
    by_cases same : other = rank
    · subst same
      rw [if_pos rfl, List.count_cons_self, ← Nat.add_assoc, Nat.add_sub_cancel]
    · rw [if_neg same, List.count_cons_of_ne (Ne.symm same)]
  · rw [if_neg inside, if_neg inside, Option.map_none]

end Counting

/-- At every step of the compile order the counters agree with the patches. -/
theorem Compiles.counting
    (discoveryNodup : discovery.Nodup)
    {gone releasing : List Nat}
    {countdown : Countdown}
    (compiles : graph.Compiles discovery gone releasing countdown) :
    graph.Counting discovery gone releasing countdown := by
  induction compiles with
  | start =>
      exact .initial discoveryNodup
  | take _ taken inductionHypothesis =>
      exact inductionHypothesis.take discoveryNodup taken
  | release _ inductionHypothesis =>
      exact inductionHypothesis.release

/-- Between two ranks only patches from modules that are not compiled yet are waited for. -/
theorem unmet_eq_awaited
    (discoveryNodup : discovery.Nodup)
    (closed :
      ∀ producer consumer,
        graph.Feeds producer consumer → consumer ∈ discovery → producer ∈ discovery)
    (gone : List Nat)
    {rank : Nat}
    {id : ModuleId}
    (atRank : discovery[rank]? = some id) :
    graph.unmet discovery gone rank =
      graph.awaited (gone.filterMap (discovery[·]?)) id := by
  have ranks (module : ModuleId) (other : Nat) :
      discovery.idxOf? module = some other ↔ discovery[other]? = some module :=
    idxOf?_eq_some_iff_of_nodup discoveryNodup
  apply List.countP_congr
  intro patch member
  simp only [owed, Bool.and_eq_true, decide_eq_true_eq, Option.any_eq_true]
  rw [ranks, atRank, Option.some.injEq, eq_comm]
  refine and_congr_right fun isTarget => ?_
  obtain ⟨producer, atProducer⟩ :=
    List.getElem?_of_mem
      (closed _ _ ⟨patch, member, rfl, isTarget⟩ (List.mem_of_getElem? atRank))
  have isProducer (other : Nat) :
      discovery[other]? = some patch.source.module ↔ other = producer := by
    rw [← ranks, (ranks _ producer).mpr atProducer, Option.some.injEq, eq_comm]
  simp [ranks, isProducer, List.mem_filterMap]

theorem orderedRanks_eq_run
    (graph : Graph U)
    (discovery : List ModuleId) :
    graph.orderedRanks discovery =
      Countdown.run (graph.leadsTo discovery) (graph.countdown discovery) :=
  rfl

/-- What has gone is what the compile order begins with. -/
theorem Compiles.compiled_prefix
    {gone releasing : List Nat}
    {countdown : Countdown}
    (compiles : graph.Compiles discovery gone releasing countdown) :
    gone.filterMap (discovery[·]?) <+: graph.emissionOrder discovery := by
  have isBeginning : gone <+: graph.orderedRanks discovery := ⟨_, compiles.append_run⟩
  exact (isBeginning.trans (List.prefix_append _ _)).filterMap _

/-- How the counters of a compile order go, from the first module to the last. -/
structure CountsSafely (graph : Graph U) (discovery : List ModuleId) : Prop where
  /-- What has gone at a stage begins the order, and every beginning of it is such a stage. -/
  stages :
    ∀ gone left,
      graph.orderedRanks discovery = gone ++ left ↔
        ∃ countdown,
          graph.Compiles discovery gone [] countdown ∧
            Countdown.run (graph.leadsTo discovery) countdown = left
  /-- What has gone is compiled, and nothing else is. -/
  compiled :
    ∀ gone releasing countdown,
      graph.Compiles discovery gone releasing countdown →
        gone.filterMap (discovery[·]?) <+: graph.emissionOrder discovery
  /-- The rank that is taken is one of the list, and was not taken before. -/
  taken :
    ∀ gone countdown rank rest,
      graph.Compiles discovery gone [] countdown →
        countdown.next? = some (rank, rest) →
          rank < discovery.length ∧ rank ∉ gone
  /-- The counter that is lowered is one of the list, and is not zero. -/
  released :
    ∀ gone rank releasing countdown,
      graph.Compiles discovery gone (rank :: releasing) countdown →
        ∃ count, countdown.waiting[rank]? = some (count + 1)
  /-- After every module a counter is the number of patches from modules not compiled yet. -/
  waiting :
    ∀ gone countdown,
      graph.Compiles discovery gone [] countdown →
        countdown.waiting =
          discovery.map (graph.awaited (gone.filterMap (discovery[·]?)))

/-- On modules that are closed under producers all counters go safely. -/
theorem countsSafely_of_closed
    (discoveryNodup : discovery.Nodup)
    (closed :
      ∀ producer consumer,
        graph.Feeds producer consumer → consumer ∈ discovery → producer ∈ discovery) :
    graph.CountsSafely discovery where
  stages gone left := by
    rw [orderedRanks_eq_run]
    exact Countdown.run_eq_append_iff
  compiled _ _ _ compiles := compiles.compiled_prefix
  taken gone countdown rank rest compiles isTaken := by
    have tracks := (compiles.counting discoveryNodup).tracks
    obtain ⟨inside, notGone, _⟩ := (tracks.ready rank).mp (Countdown.next?_some isTaken).1
    exact ⟨inside, notGone⟩
  released gone rank releasing countdown compiles := by
    obtain ⟨last, _, isTarget⟩ := compiles.exists_leadsTo List.mem_cons_self
    have counts := (compiles.counting discoveryNodup).waiting rank
    rw [if_pos (lt_length_of_mem_leadsTo isTarget), List.count_cons_self, ← Nat.add_assoc]
      at counts
    exact ⟨_, counts⟩
  waiting gone countdown compiles := by
    apply List.ext_getElem?
    intro rank
    rw [(compiles.counting discoveryNodup).waiting, List.getElem?_map]
    split
    · rename_i inside
      have atRank := List.getElem?_eq_getElem inside
      rw [atRank, Option.map_some, List.count_nil, Nat.add_zero,
        unmet_eq_awaited discoveryNodup closed gone atRank]
    · rename_i outside
      rw [List.getElem?_eq_none (Nat.le_of_not_lt outside), Option.map_none]

/-- The counters go safely in the compile order of every walk. -/
theorem schedule_countsSafely
    (graph : Graph U)
    (sinks : List ModuleId) :
    graph.CountsSafely (graph.schedule sinks).discovery :=
  countsSafely_of_closed (nodup_discover graph sinks) fun _ _ feeds isDiscovered =>
    discover_closed isDiscovered feeds

/-- A note waits for every patch of a sweep, and the patches to other notes are left out. -/
example :
    let notes : Graph SequenceUnit :=
      empty.run
        [.add (.playNote PlayNote.dials) .origin,
          .add (.playNote PlayNote.dials) .origin,
          .add (.range .sweep RangeKind.dials) .origin,
          .connect ⟨2, "OUT"⟩ ⟨0, "NOTE"⟩,
          .connect ⟨2, "OUT"⟩ ⟨0, "VEL"⟩,
          .connect ⟨2, "OUT"⟩ ⟨1, "NOTE"⟩]
    (notes.countdown (notes.discover [0])).waiting = [2, 0] ∧
      notes.leadsTo (notes.discover [0]) 1 = [0, 0] := by
  decide +kernel

end Graph

end SynthGraph
