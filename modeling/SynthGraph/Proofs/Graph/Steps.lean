import SynthGraph.Proofs.Graph.Meaning

namespace SynthGraph

/-!
# The steps of a reduction

A module is compiled against what the modules before it emitted, whether or not
all its producers are among them (`Graph.reduce_step`).  So a fact about single
units becomes a fact about every reduction, on cycles too.
-/

/-- What is read back was emitted. -/
theorem Emissions.mem_of_get?
    {emissions : Emissions}
    {id : ModuleId}
    {emission : Emission}
    (found : emissions.get? id = some emission) :
    (id, emission) ∈ emissions := by
  obtain ⟨step, isFirst, rfl⟩ := Option.map_eq_some_iff.mp found
  have isNamed : step.1 = id := by
    simpa using List.find?_some isFirst
  rw [← isNamed]
  exact List.mem_of_find?_eq_some isFirst

namespace Graph

variable {U : Type} [UnitLike U]

section Steps

variable
  {graph : Graph U}
  {context : UnitLike.Context U}
  {before after : Emissions}
  {id : ModuleId}
  {emission : Emission}

/-- Every emission of a pass over some modules was compiled from the ones before it. -/
theorem step_of_foldl
    {schedule : Schedule}
    {ids : List ModuleId}
    (splits :
      ids.foldl (graph.emitNext context schedule) [] = before ++ (id, emission) :: after) :
    id ∈ ids ∧
      ∃ unit,
        graph.unit? id = some unit ∧
          emission =
            UnitLike.compile context (graph.connections schedule before id unit) unit := by
  induction ids using List.reverseRecOn generalizing after with
  | nil =>
      simp at splits
  | append_singleton ids last inductionHypothesis =>
      rw [List.foldl_append, List.foldl_cons, List.foldl_nil, emitNext] at splits
      cases found : graph.unit? last with
      | none =>
          simp only [found] at splits
          obtain ⟨member, compiled⟩ := inductionHypothesis splits
          exact ⟨List.mem_append_left _ member, compiled⟩
      | some unit =>
          simp only [found] at splits
          rcases List.eq_nil_or_concat after with isLast | ⟨earlier, step, rfl⟩
          · -- The module is the one compiled last.
            subst isLast
            obtain ⟨rfl, isStep⟩ := List.append_inj' splits rfl
            cases isStep
            exact ⟨List.mem_append_right _ List.mem_cons_self, unit, found, rfl⟩
          · have regrouped :
                before ++ (id, emission) :: earlier.concat step =
                  (before ++ (id, emission) :: earlier) ++ [step] := by
              simp
            obtain ⟨splitsEarlier, _⟩ := List.append_inj' (splits.trans regrouped) rfl
            obtain ⟨member, compiled⟩ := inductionHypothesis splitsEarlier
            exact ⟨List.mem_append_left _ member, compiled⟩

/-- What is compiled stands behind the sinks, and is compiled from what was emitted before it. -/
theorem reduce_step
    {sinks : List ModuleId}
    (splits : graph.reduce context sinks = before ++ (id, emission) :: after) :
    graph.Behind sinks id ∧
      ∃ unit,
        graph.unit? id = some unit ∧
          emission =
            UnitLike.compile context
              (graph.connections (graph.schedule sinks) before id unit) unit := by
  obtain ⟨isScheduled, compiled⟩ := step_of_foldl splits
  exact ⟨mem_emission.mp isScheduled, compiled⟩

/-- What is read back from a reduction was compiled in one of its steps. -/
theorem step_of_get?
    {sinks : List ModuleId}
    (found : (graph.reduce context sinks).get? id = some emission) :
    ∃ earlier unit,
      graph.unit? id = some unit ∧
        emission =
          UnitLike.compile context
            (graph.connections (graph.schedule sinks) earlier id unit) unit := by
  obtain ⟨before, after, splits⟩ := List.append_of_mem (Emissions.mem_of_get? found)
  obtain ⟨_, unit, isUnit, compiled⟩ := reduce_step splits
  exact ⟨before, unit, isUnit, compiled⟩

end Steps

section Modules

variable
  {graph : Graph U}
  (wellPatched : graph.WellPatched)
  (context : UnitLike.Context U)
  (sinks : List ModuleId)

include wellPatched

/-- Every scheduled module is compiled, in the order of the schedule. -/
theorem map_fst_reduce :
    (graph.reduce context sinks).map Prod.fst = (graph.schedule sinks).emission := by
  have folded (ids : List ModuleId) (areBehind : ∀ id ∈ ids, graph.Behind sinks id) :
      (ids.foldl (graph.emitNext context (graph.schedule sinks)) []).map Prod.fst = ids := by
    induction ids using List.reverseRecOn with
    | nil =>
        rfl
    | append_singleton ids last inductionHypothesis =>
        obtain ⟨unit, found⟩ := (areBehind last (by simp)).unit?_isSome wellPatched
        have earlier := inductionHypothesis fun id member =>
          areBehind id (List.mem_append_left _ member)
        rw [List.foldl_append, List.foldl_cons, List.foldl_nil, emitNext]
        simp only [found, List.map_append, List.map_cons, List.map_nil, earlier]
  exact folded _ fun _ isScheduled => mem_emission.mp isScheduled

/-- Where no cycle is around, a reduction lists what the scheduled modules mean. -/
theorem reduce_eq_map
    [LawfulUnit U]
    (acyclic : graph.AcyclicBehind sinks)
    {meaning : ModuleId → Emission}
    (isMeaning : graph.IsMeaning context (graph.discover sinks) meaning) :
    graph.reduce context sinks =
      (graph.schedule sinks).emission.map fun id => (id, meaning id) := by
  have reduces := reducesToMeaning_of_acyclic wellPatched context acyclic
  rw [← map_fst_reduce wellPatched context sinks, List.map_map]
  conv_lhs => rw [← List.map_id (graph.reduce context sinks)]
  apply List.map_congr_left
  rintro ⟨id, emission⟩ member
  obtain ⟨behind, means⟩ := (reduces.mem_reduce id emission).mp member
  obtain ⟨unit, found⟩ := behind.unit?_isSome wellPatched
  simp only [id_eq, Function.comp_apply, means.unique (isMeaning id unit found)]

end Modules

end Graph

end SynthGraph
