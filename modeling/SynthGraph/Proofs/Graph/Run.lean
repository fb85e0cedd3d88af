import SynthGraph.Graph.Basic
import SynthGraph.Proofs.Unit.Sockets

namespace SynthGraph

/-!
# Runs of graph operations

A graph is built by adding and removing modules, turning dials and connecting
sockets, in any order and with any arguments.  An operation that is refused
leaves the graph as it is.

This module says what each operation does to the units that module numbers
stand for.
-/

/-- One change to a graph, as an editor asks for it. -/
inductive Operation (U : Type) where
  | add (unit : U) (position : Position)
  | remove (id : ModuleId)
  | setDial (id : ModuleId) (dial : String) (value : Double)
  | connect (first second : Endpoint)

namespace Graph

variable {U : Type}

theorem module?_some
    {graph : Graph U}
    {id : ModuleId}
    {module : Module U}
    (found : graph.module? id = some module) :
    module ∈ graph.modules ∧ module.id = id := by
  refine ⟨List.mem_of_find?_eq_some found, ?_⟩
  simpa using List.find?_some found

/-- A new module is found under the next number, unless that number is taken. -/
theorem unit?_add
    (graph : Graph U)
    (unit : U)
    (position : Position)
    (id : ModuleId) :
    (graph.add unit position).unit? id =
      (graph.unit? id).or (if graph.nextId = id then some unit else none) := by
  simp only [unit?, module?, add, List.find?_append]
  cases graph.modules.find? (·.id = id) with
  | none =>
      by_cases isNew : graph.nextId = id <;> simp [isNew]
  | some module =>
      simp

theorem unit?_add_of_some
    {graph : Graph U}
    {id : ModuleId}
    {present : U}
    (found : graph.unit? id = some present)
    (unit : U)
    (position : Position) :
    (graph.add unit position).unit? id = some present := by
  simp [unit?_add, found]

/-- Changing a module in place is seen under its number only. -/
theorem module?_updateModule
    (graph : Graph U)
    (id : ModuleId)
    (update : Module U → Module U)
    (keepsId : ∀ module, (update module).id = module.id)
    (other : ModuleId) :
    (graph.updateModule id update).module? other =
      (graph.module? other).map fun module =>
        if module.id = id then update module else module := by
  simp only [module?, updateModule, List.find?_map]
  congr 2
  funext module
  by_cases changed : module.id = id <;> simp [changed, keepsId]

theorem unit?_replaceUnit_self
    {graph : Graph U}
    {id : ModuleId}
    {present : U}
    (found : graph.unit? id = some present)
    (unit : U) :
    (graph.replaceUnit id unit).unit? id = some unit := by
  obtain ⟨module, isModule, rfl⟩ := Option.map_eq_some_iff.mp found
  have sameId := (module?_some isModule).2
  have replaced :=
    graph.module?_updateModule id
      (fun module => { module with unit := unit }) (fun _ => rfl) id
  simp [unit?, replaceUnit, replaced, isModule, sameId]

theorem unit?_replaceUnit_of_ne
    (graph : Graph U)
    {id other : ModuleId}
    (different : other ≠ id)
    (unit : U) :
    (graph.replaceUnit id unit).unit? other = graph.unit? other := by
  have replaced :=
    graph.module?_updateModule id
      (fun module => { module with unit := unit }) (fun _ => rfl) other
  simp only [unit?, replaceUnit, replaced, Option.map_map]
  cases found : graph.module? other with
  | none =>
      rfl
  | some module =>
      have sameId := (module?_some found).2
      simp [sameId, different]

/-- Moving a module changes no unit. -/
theorem unit?_move
    (graph : Graph U)
    (id : ModuleId)
    (position : Position)
    (other : ModuleId) :
    (graph.move id position).unit? other = graph.unit? other := by
  have moved :=
    graph.module?_updateModule id
      (fun module => { module with position := position }) (fun _ => rfl) other
  simp only [unit?, move, moved, Option.map_map]
  congr 1
  funext module
  by_cases isMoved : module.id = id <;> simp [isMoved]

/-- What removing a module leaves. -/
theorem remove?_some
    {graph rest : Graph U}
    {id : ModuleId}
    {unit : U}
    (removed : graph.remove? id = some (unit, rest)) :
    graph.unit? id = some unit ∧
      rest.modules = graph.modules.filter (·.id ≠ id) ∧
      rest.patches = graph.patches.filter (!·.involves id) ∧
      rest.nextId = graph.nextId := by
  unfold remove? at removed
  split at removed
  · simp at removed
  · rename_i present found
    simp only [Option.some.injEq, Prod.mk.injEq] at removed
    obtain ⟨rfl, rfl⟩ := removed
    exact ⟨found, rfl, rfl, rfl⟩

theorem unit?_remove?_of_ne
    {graph rest : Graph U}
    {id other : ModuleId}
    {unit : U}
    (removed : graph.remove? id = some (unit, rest))
    (different : other ≠ id) :
    rest.unit? other = graph.unit? other := by
  have left := (remove?_some removed).2.1
  simp only [unit?, module?, left, List.find?_filter]
  congr 2
  funext module
  by_cases isOther : module.id = other <;> simp [isOther, different]

variable [UnitLike U]

/-- The graph after one operation. -/
def apply (graph : Graph U) : Operation U → Graph U
  | .add unit position =>
      graph.add unit position
  | .remove id =>
      match graph.remove? id with
      | some (_, rest) => rest
      | none => graph
  | .setDial id dial value =>
      (graph.setDial? id dial value).getD graph
  | .connect first second =>
      match graph.connect first second with
      | .ok (_, patched) => patched
      | .error _ => graph

/-- The graph after several operations. -/
def run (graph : Graph U) (operations : List (Operation U)) : Graph U :=
  operations.foldl apply graph

/-- What every operation keeps holds after a run, if it holds before. -/
theorem run_induction
    {holds : Graph U → Prop}
    (step : ∀ graph operation, holds graph → holds (graph.apply operation))
    {graph : Graph U}
    (start : holds graph)
    (operations : List (Operation U)) :
    holds (graph.run operations) := by
  unfold run
  induction operations generalizing graph with
  | nil =>
      exact start
  | cons operation rest inductionHypothesis =>
      exact inductionHypothesis (step graph operation start)

theorem setDial?_some
    {graph turnedGraph : Graph U}
    {id : ModuleId}
    {dial : String}
    {value : Double}
    (turned : graph.setDial? id dial value = some turnedGraph) :
    ∃ unit turnedUnit,
      graph.unit? id = some unit ∧
        UnitLike.setDial? unit dial value = some turnedUnit ∧
        turnedGraph = graph.replaceUnit id turnedUnit := by
  obtain ⟨unit, found, rest⟩ := Option.bind_eq_some_iff.mp turned
  obtain ⟨turnedUnit, isTurned, done⟩ := Option.bind_eq_some_iff.mp rest
  simp only [pure, Option.some.injEq] at done
  exact ⟨unit, turnedUnit, found, isTurned, done.symm⟩

end Graph

end SynthGraph
