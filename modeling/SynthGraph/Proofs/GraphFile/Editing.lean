import SynthGraph.Proofs.Definition.Rewriting
import SynthGraph.Proofs.GraphFile.Capture

namespace SynthGraph

/-!
# Editing graphs

A graph is edited by the operations on it, by moving its modules and by choosing
samples for its units; units come from the catalog.  Every edit keeps a graph
storable, and so is every graph that a document or a file is loaded into,
whatever the file says.
-/

open CatalogUnit

variable {U : Type} [UnitLike U] [CatalogUnit U]

/-- Whether an operation adds units of the catalog only. -/
def Operation.Drawn : Operation U → Prop
  | .add unit _ => CatalogUnit.Drawn unit
  | _ => True

/-- Whether an operation adds units with their dials unturned only. -/
def Operation.isPlain : Operation U → Bool
  | .add unit _ => UnitLike.dials unit = declared unit
  | _ => true

/-- Units with their dials unturned are units of the catalog. -/
theorem Operation.drawn_of_isPlain
    {operations : List (Operation U)}
    (plain : operations.all Operation.isPlain) :
    ∀ operation ∈ operations, operation.Drawn := by
  intro operation member
  have isPlain := List.all_eq_true.mp plain operation member
  cases operation with
  | add unit position =>
      exact drawn_iff_tuned.mpr (tuned_of_declared (of_decide_eq_true isPlain))
  | remove | setDial | connect =>
      trivial

namespace Graph

/-- A change to a graph: a run of operations, a move, or another sample for a unit. -/
inductive Edit (graph : Graph U) : Graph U → Prop where
  | run {operations : List (Operation U)} :
      (∀ operation ∈ operations, operation.Drawn) → Edit graph (graph.run operations)
  | move (id : ModuleId) (position : Position) :
      Edit graph (graph.move id position)
  | sample {id : ModuleId} {unit : U} (sample : Sample) :
      graph.unit? id = some unit → Edit graph (graph.replaceUnit id (withSample sample unit))

namespace Storable

theorem empty : (Graph.empty : Graph U).Storable :=
  ⟨numbered_empty, wellPatched_empty, by simp [Graph.empty]⟩

variable {graph : Graph U} (storable : graph.Storable)

include storable

theorem unit_tuned
    {id : ModuleId}
    {unit : U}
    (found : graph.unit? id = some unit) :
    Tuned unit := by
  obtain ⟨module, isModule, rfl⟩ := Option.map_eq_some_iff.mp found
  exact storable.tuned module (module?_some isModule).1

theorem add
    {unit : U}
    (tuned : Tuned unit)
    (position : Position) :
    (graph.add unit position).Storable := by
  refine ⟨storable.numbered.add unit position, storable.wellPatched.add unit position, ?_⟩
  rw [Graph.add, List.forall_mem_append]
  exact ⟨storable.tuned, List.forall_mem_singleton.mpr tuned⟩

/-- Another unit with the same sockets may take the place of one. -/
theorem replaceUnit
    {id : ModuleId}
    {unit replacement : U}
    (found : graph.unit? id = some unit)
    (sameSockets : UnitLike.sockets replacement = UnitLike.sockets unit)
    (tuned : Tuned replacement) :
    (graph.replaceUnit id replacement).Storable := by
  refine ⟨storable.numbered.updateModule id fun _ => rfl,
    storable.wellPatched.replaceUnit found sameSockets, ?_⟩
  intro module member
  obtain ⟨old, isOld, rfl⟩ := List.mem_map.mp member
  split
  · exact tuned
  · exact storable.tuned old isOld

theorem connect
    {first second : Endpoint}
    {change : Change}
    {patched : Graph U}
    (isPatched : graph.connect first second = .ok (change, patched)) :
    patched.Storable := by
  obtain ⟨patch, _, toggled⟩ := connect_eq_ok_iff.mp isPatched
  have kept : patched = (graph.toggle patch).2 := by
    rw [toggled]
  have numbered := storable.numbered.toggle patch
  have sameModules := toggle_modules graph patch
  rw [← kept] at numbered sameModules
  refine ⟨numbered, storable.wellPatched.connect isPatched, ?_⟩
  rw [sameModules]
  exact storable.tuned

theorem apply
    {operation : Operation U}
    (drawn : operation.Drawn) :
    (graph.apply operation).Storable := by
  cases operation with
  | add unit position =>
      exact storable.add (CatalogUnit.Drawn.tuned drawn) position
  | remove id =>
      have kept := storable.wellPatched.apply (.remove id)
      refine ⟨storable.numbered.apply (.remove id), kept, ?_⟩
      simp only [Graph.apply]
      split
      · rename_i removed
        rw [(remove?_some removed).2.1]
        exact fun module member => storable.tuned module (List.mem_of_mem_filter member)
      · exact storable.tuned
  | setDial id dial value =>
      simp only [Graph.apply]
      cases isTurned : graph.setDial? id dial value with
      | none =>
          exact storable
      | some turnedGraph =>
          obtain ⟨unit, turned, found, unitTurned, rfl⟩ := setDial?_some isTurned
          exact storable.replaceUnit found (LawfulUnit.sockets_setDial? unitTurned)
            ((storable.unit_tuned found).setDial? unitTurned)
  | connect first second =>
      simp only [Graph.apply]
      split
      · rename_i isPatched
        exact storable.connect isPatched
      · exact storable

theorem run
    {operations : List (Operation U)}
    (drawn : ∀ operation ∈ operations, operation.Drawn) :
    (graph.run operations).Storable := by
  induction operations generalizing graph with
  | nil =>
      exact storable
  | cons operation rest inductionHypothesis =>
      rw [List.forall_mem_cons] at drawn
      exact inductionHypothesis (storable.apply drawn.1) drawn.2

theorem edit
    {edited : Graph U}
    (isEdit : graph.Edit edited) :
    edited.Storable := by
  cases isEdit with
  | run drawn =>
      exact storable.run drawn
  | move id position =>
      refine ⟨storable.numbered.updateModule id fun _ => rfl,
        storable.wellPatched.move id position, ?_⟩
      intro module member
      obtain ⟨old, isOld, rfl⟩ := List.mem_map.mp member
      have tuned := storable.tuned old isOld
      split <;> exact tuned
  | sample sample found =>
      exact storable.replaceUnit found (sockets_withSample sample _)
        ((storable.unit_tuned found).withSample sample)

end Storable

end Graph

section Loading

open GraphFile

/-- Whatever a node says, its unit comes from the catalog. -/
theorem CatalogUnit.tuned_nodeUnit
    {node : FileNode}
    {unit : U}
    (accepted : nodeUnit registry withSample node = .ok unit) :
    Tuned unit := by
  unfold nodeUnit at accepted
  split at accepted
  · cases accepted
  · rename_i new created
    have turned := (Drawn.create created).foldl_setDial node.dials.entries
    cases accepted
    split
    · exact turned.tuned.withSample _
    · exact turned.tuned

theorem Graph.Storable.addNodes
    {graph filled : Graph U}
    (storable : graph.Storable)
    {nodes : List FileNode}
    (accepted : addNodes registry withSample graph nodes = .ok filled) :
    filled.Storable := by
  induction nodes generalizing graph with
  | nil =>
      cases accepted
      exact storable
  | cons node rest inductionHypothesis =>
      obtain ⟨unit, isUnit, later⟩ := bind_eq_ok_iff.mp accepted
      exact inductionHypothesis (storable.add (tuned_nodeUnit isUnit) node.position) later

theorem Graph.Storable.addConnection
    {graph patched : Graph U}
    (storable : graph.Storable)
    {count : Nat}
    {connection : FileConnection}
    (accepted : addConnection count graph connection = .ok patched) :
    patched.Storable := by
  obtain ⟨fromModule, _, rest⟩ := bind_eq_ok_iff.mp accepted
  obtain ⟨toModule, _, rest⟩ := bind_eq_ok_iff.mp rest
  simp only at rest
  split at rest
  · cases rest
  · split at rest
    · rename_i isPatched
      cases rest
      exact storable.connect isPatched
    · cases rest

theorem Graph.Storable.addConnections
    {graph patched : Graph U}
    (storable : graph.Storable)
    {count : Nat}
    {connections : List FileConnection}
    (accepted : addConnections count graph connections = .ok patched) :
    patched.Storable := by
  induction connections generalizing graph with
  | nil =>
      cases accepted
      exact storable
  | cons connection rest inductionHypothesis =>
      obtain ⟨one, isOne, later⟩ := bind_eq_ok_iff.mp accepted
      exact inductionHypothesis (storable.addConnection isOne) later

/-- A graph that is rebuilt from a file can be stored again. -/
theorem Graph.storable_rebuild
    {nodes : List FileNode}
    {connections : List FileConnection}
    {graph : Graph U}
    (accepted : rebuild registry withSample nodes connections = .ok graph) :
    graph.Storable := by
  obtain ⟨filled, isFilled, patched⟩ := bind_eq_ok_iff.mp accepted
  exact (Storable.empty.addNodes isFilled).addConnections patched

theorem Instrument.storable_new : Instrument.new.graph.Storable :=
  (Graph.Storable.empty.add (tuned_of_declared rfl) _).add (tuned_of_declared rfl) _

theorem Sequence.storable_new
    (channel : UInt8) :
    (Sequence.new channel).graph.Storable :=
  Graph.Storable.empty.add (tuned_of_declared rfl) _

/-- A graph that a document is loaded into can be stored. -/
theorem Definition.Sound.storable_loaded
    {definition : Definition}
    (sound : definition.Sound) :
    definition.loaded.Storable := by
  refine ⟨ready_new.numbered.grow _ _, sound.toGraph_eq.2, ?_⟩
  have placed (start : ModuleId) (units : List InstrumentUnit) :
      ∀ module ∈ Graph.place start units, module.unit ∈ units := by
    induction units generalizing start with
    | nil =>
        simp [Graph.place]
    | cons unit rest inductionHypothesis =>
        rw [Graph.place, List.forall_mem_cons]
        refine ⟨List.mem_cons_self, fun module member => ?_⟩
        exact List.mem_cons_of_mem unit (inductionHypothesis (start + 1) module member)
  rw [loaded, Graph.grow, List.forall_mem_append]
  exact ⟨Instrument.storable_new.tuned,
    fun module member => sound.tuned _ (placed _ _ module member)⟩

end Loading

end SynthGraph
