import SynthGraph.Proofs.Graph.Countdown

namespace SynthGraph.Graph

/-!
# Producers are compiled first

Every discovered module is compiled once (`perm_emissionOrder`).  A module from
which no endless chain of producers starts is compiled after its producers
(`feeds_before`), so on acyclic graphs the compile order is a topological order.
-/

variable {U : Type} {graph : Graph U} {discovery : List ModuleId}

/-- Nothing behind the sinks feeds itself, directly or through other modules. -/
def AcyclicBehind (graph : Graph U) (sinks : List ModuleId) : Prop :=
  ∀ id, graph.Behind sinks id → ¬ Relation.TransGen graph.Feeds id id

section Goes

variable {gone order : List Nat} {rank : Nat}

/-- A rank waits for nothing once the ranks of all its discovered producers have gone. -/
theorem unmet_eq_zero_iff
    (discoveryNodup : discovery.Nodup)
    {id : ModuleId}
    (atRank : discovery[rank]? = some id) :
    graph.unmet discovery gone rank = 0 ↔
      ∀ producer other, graph.Feeds producer id → discovery[other]? = some producer →
        other ∈ gone := by
  have ranks (module : ModuleId) (other : Nat) :
      discovery.idxOf? module = some other ↔ discovery[other]? = some module :=
    idxOf?_eq_some_iff_of_nodup discoveryNodup
  rw [unmet, List.countP_eq_zero]
  constructor
  · rintro noneOwed producer other ⟨patch, member, rfl, rfl⟩ atOther
    have notOwed := noneOwed patch member
    simpa [owed, (ranks _ _).mpr atRank, (ranks _ _).mpr atOther] using notOwed
  · intro allGone patch member isOwed
    simp only [owed, Bool.and_eq_true, decide_eq_true_eq, Option.any_eq_true] at isOwed
    obtain ⟨isTarget, other, isSource, notGone⟩ := isOwed
    have target := (ranks _ _).mp isTarget
    rw [atRank, Option.some.injEq] at target
    exact notGone
      (allGone _ other ⟨patch, member, rfl, target.symm⟩ ((ranks _ _).mp isSource))

theorem Goes.rank_inside
    (goes : graph.Goes discovery gone order)
    (member : rank ∈ order) :
    rank < discovery.length ∧ rank ∉ gone := by
  induction goes with
  | stop _ =>
      cases member
  | next inside notGone _ _ _ inductionHypothesis =>
      rcases List.mem_cons.mp member with rfl | later
      · exact ⟨inside, notGone⟩
      · have known := inductionHypothesis later
        exact ⟨known.1, fun isGone => known.2 (List.mem_append_left _ isGone)⟩

theorem Goes.nodup
    (goes : graph.Goes discovery gone order) :
    order.Nodup := by
  induction goes with
  | stop _ =>
      exact List.nodup_nil
  | next _ _ _ _ rest inductionHypothesis =>
      refine List.nodup_cons.mpr ⟨?_, inductionHypothesis⟩
      intro again
      exact (rest.rank_inside again).2 (List.mem_append_right _ List.mem_cons_self)

/-- When a rank goes it waits for nothing. -/
theorem Goes.unmet_at
    (goes : graph.Goes discovery gone order)
    {before after : List Nat}
    (splits : order = before ++ rank :: after) :
    graph.unmet discovery (gone ++ before) rank = 0 := by
  induction goes generalizing before with
  | stop _ =>
      simp at splits
  | @next gone order first _ _ nothingOwed _ _ inductionHypothesis =>
      cases before with
      | nil =>
          obtain ⟨rfl, rfl⟩ := List.cons.inj splits
          simpa using nothingOwed
      | cons other before =>
          obtain ⟨rfl, rest⟩ := List.cons.inj splits
          simpa using inductionHypothesis rest

/-- A rank that never goes waits for something in the end. -/
theorem Goes.unmet_left
    (goes : graph.Goes discovery gone order)
    (inside : rank < discovery.length)
    (left : rank ∉ gone ++ order) :
    graph.unmet discovery (gone ++ order) rank ≠ 0 := by
  induction goes with
  | stop waits =>
      simp only [List.append_nil] at left ⊢
      exact waits rank inside left
  | next _ _ _ _ _ inductionHypothesis =>
      have stillLeft := inductionHypothesis (by simpa using left)
      simpa using stillLeft

/-- A module goes if no endless chain of producers starts from it. -/
theorem Goes.rank_mem_of_acc
    (discoveryNodup : discovery.Nodup)
    (goes : graph.Goes discovery [] order)
    {id : ModuleId}
    (grounded : Acc graph.Feeds id)
    (atRank : discovery[rank]? = some id) :
    rank ∈ order := by
  induction grounded generalizing rank with
  | intro id _ inductionHypothesis =>
      by_contra left
      obtain ⟨inside, _⟩ := List.getElem?_eq_some_iff.mp atRank
      apply goes.unmet_left inside (by simpa using left)
      rw [unmet_eq_zero_iff discoveryNodup atRank]
      intro producer other feeds atOther
      exact List.mem_append_right _ (inductionHypothesis producer feeds atOther)

end Goes

theorem goes_orderedRanks
    (graph : Graph U)
    (discoveryNodup : discovery.Nodup) :
    graph.Goes discovery [] (graph.orderedRanks discovery) := by
  apply goes_run discoveryNodup _ [] (tracks_countdown discoveryNodup)
  intro rank id atRank
  simp only [atRank]

theorem filterMap_range_getElem?
    (items : List ModuleId) :
    (List.range items.length).filterMap (items[·]?) = items := by
  induction items with
  | nil =>
      rfl
  | cons first rest inductionHypothesis =>
      rw [List.length_cons, List.range_succ_eq_map, List.filterMap_cons, List.filterMap_map]
      simp only [List.getElem?_cons_zero]
      congr 1

/-- Every discovered module is compiled once. -/
theorem perm_emissionOrder
    (discoveryNodup : discovery.Nodup) :
    (graph.emissionOrder discovery).Perm discovery := by
  have goes := goes_orderedRanks graph discoveryNodup
  have remainingNodup :
      ((List.range discovery.length).reverse.filter
        (· ∉ graph.orderedRanks discovery)).Nodup :=
    (List.nodup_reverse.mpr List.nodup_range).filter _
  have ranks :
      (graph.orderedRanks discovery ++
          (List.range discovery.length).reverse.filter
            (· ∉ graph.orderedRanks discovery)).Perm
        (List.range discovery.length) := by
    rw [List.perm_ext_iff_of_nodup _ List.nodup_range]
    · intro rank
      simp only [List.mem_append, List.mem_filter, List.mem_reverse, List.mem_range,
        decide_eq_true_eq]
      constructor
      · rintro (isOrdered | ⟨inside, _⟩)
        · exact (goes.rank_inside isOrdered).1
        · exact inside
      · intro inside
        by_cases isOrdered : rank ∈ graph.orderedRanks discovery
        · exact Or.inl isOrdered
        · exact Or.inr ⟨inside, isOrdered⟩
    · refine List.nodup_append.mpr ⟨goes.nodup, remainingNodup, ?_⟩
      rintro rank isOrdered other isRemaining rfl
      simp [isOrdered] at isRemaining
  have modules := ranks.filterMap (discovery[·]?)
  rw [filterMap_range_getElem?] at modules
  exact modules

/-- The scheduled modules are those behind the sinks. -/
theorem mem_emission
    {sinks : List ModuleId}
    {id : ModuleId} :
    id ∈ (graph.schedule sinks).emission ↔ graph.Behind sinks id :=
  (perm_emissionOrder (nodup_discover graph sinks)).mem_iff.trans mem_discover

/-- Without endless chains all modules are compiled in the order of the countdown. -/
theorem emissionOrder_eq_of_acc
    (discoveryNodup : discovery.Nodup)
    (grounded : ∀ id ∈ discovery, Acc graph.Feeds id) :
    graph.emissionOrder discovery =
      (graph.orderedRanks discovery).filterMap (discovery[·]?) := by
  have goes := goes_orderedRanks graph discoveryNodup
  have noneRemains :
      (List.range discovery.length).reverse.filter (· ∉ graph.orderedRanks discovery) = [] := by
    rw [List.filter_eq_nil_iff]
    intro rank member
    rw [List.mem_reverse, List.mem_range] at member
    have isOrdered :=
      goes.rank_mem_of_acc discoveryNodup (grounded _ (List.getElem_mem member))
        (List.getElem?_eq_getElem member)
    simp [isOrdered]
  simp only [emissionOrder, noneRemains, List.append_nil]

/-- A module that the countdown lets go comes after its discovered producers. -/
theorem ordered_before
    (discoveryNodup : discovery.Nodup)
    {before after : List ModuleId}
    {producer consumer : ModuleId}
    (splits :
      (graph.orderedRanks discovery).filterMap (discovery[·]?) = before ++ consumer :: after)
    (feeds : graph.Feeds producer consumer)
    (isDiscovered : producer ∈ discovery) :
    producer ∈ before := by
  have goes := goes_orderedRanks graph discoveryNodup
  obtain ⟨early, late, ranks, isBefore, isAfter⟩ := List.filterMap_eq_append_iff.mp splits
  obtain ⟨skipped, rank, later, lateShape, isSkipped, atRank, _⟩ :=
    List.filterMap_eq_cons_iff.mp isAfter
  rw [lateShape, ← List.append_assoc] at ranks
  have nothingOwed := goes.unmet_at ranks
  rw [List.nil_append, unmet_eq_zero_iff discoveryNodup atRank] at nothingOwed
  obtain ⟨other, atOther⟩ := List.getElem?_of_mem isDiscovered
  rcases List.mem_append.mp (nothingOwed producer other feeds atOther) with isEarly | wasSkipped
  · rw [← isBefore]
    exact List.mem_filterMap.mpr ⟨other, isEarly, atOther⟩
  · rw [isSkipped other wasSkipped] at atOther
    cases atOther

/-- Without endless chains every producer is compiled before what it feeds. -/
theorem feeds_before
    (discoveryNodup : discovery.Nodup)
    (grounded : ∀ id ∈ discovery, Acc graph.Feeds id)
    {before after : List ModuleId}
    {producer consumer : ModuleId}
    (splits : graph.emissionOrder discovery = before ++ consumer :: after)
    (feeds : graph.Feeds producer consumer)
    (isDiscovered : producer ∈ discovery) :
    producer ∈ before := by
  rw [emissionOrder_eq_of_acc discoveryNodup grounded] at splits
  exact ordered_before discoveryNodup splits feeds isDiscovered

/-- No endless chain of producers starts from a module that no cycle leads to. -/
theorem acc_of_no_cycle
    {id : ModuleId}
    (acyclic :
      ∀ producer,
        Relation.ReflTransGen graph.Feeds producer id →
          ¬ Relation.TransGen graph.Feeds producer producer) :
    Acc graph.Feeds id := by
  -- Only finitely many modules lead to this one, so a transitive relation on them
  -- that relates none to itself is well founded.
  let producers : Set ModuleId :=
    { producer | Relation.ReflTransGen graph.Feeds producer id }
  let depends : producers.Elem → producers.Elem → Prop := fun first second =>
    Relation.TransGen graph.Feeds first.val second.val
  have isFinite : producers.Finite := by
    refine Set.Finite.subset
      (List.finite_toSet (id :: graph.patches.map (·.source.module))) ?_
    intro producer path
    rcases path.cases_head with rfl | ⟨consumer, ⟨patch, member, rfl, _⟩, _⟩
    · exact List.mem_cons_self
    · exact List.mem_cons_of_mem _ (List.mem_map_of_mem member)
  have finite := isFinite.to_subtype
  have transitive : IsTrans producers.Elem depends :=
    ⟨fun _ _ _ first second => first.trans second⟩
  have irreflexive : Std.Irrefl depends := ⟨fun module => acyclic module.val module.property⟩
  have wellFounded : WellFounded depends := Finite.wellFounded_of_trans_of_irrefl depends
  have grounded : ∀ module : producers.Elem, Acc graph.Feeds module.val := by
    intro module
    induction module using wellFounded.induction with
    | _ module inductionHypothesis =>
        refine ⟨_, fun producer feeds => ?_⟩
        exact inductionHypothesis ⟨producer, .head feeds module.property⟩ (.single feeds)
  exact grounded ⟨id, .refl⟩

/-- In an acyclic part of a graph no endless chain of producers starts. -/
theorem AcyclicBehind.acc
    {sinks : List ModuleId}
    (acyclic : graph.AcyclicBehind sinks)
    {id : ModuleId}
    (behind : graph.Behind sinks id) :
    Acc graph.Feeds id := by
  apply acc_of_no_cycle
  intro producer path
  obtain ⟨sink, member, isThere, later⟩ := behind
  exact acyclic producer ⟨sink, member, isThere, path.trans later⟩

/-- If heights increase along all patches, no endless chain of producers starts. -/
theorem wellFounded_feeds
    (height : ModuleId → Nat)
    (increases :
      ∀ patch ∈ graph.patches, height patch.source.module < height patch.target.module) :
    WellFounded graph.Feeds := by
  refine Subrelation.wf ?_ (InvImage.wf height Nat.lt_wfRel.wf)
  rintro producer consumer ⟨patch, member, rfl, rfl⟩
  exact increases patch member

/-- Without endless chains no module depends on itself. -/
theorem acyclicBehind_of_wellFounded
    (wellFounded : WellFounded graph.Feeds)
    (sinks : List ModuleId) :
    graph.AcyclicBehind sinks :=
  fun _ _ path => wellFounded.transGen.asymmetric _ _ path path

end SynthGraph.Graph
