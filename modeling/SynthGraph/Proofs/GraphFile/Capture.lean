import SynthGraph.GraphFile.Basic
import SynthGraph.Proofs.Graph.Compacting
import SynthGraph.Proofs.Unit.Catalog

namespace SynthGraph

/-!
# Capturing and rebuilding graphs

A file keeps of a graph all but the numbers of its modules.  Rebuilding what was
captured adds the same units in the same places and makes every patch again, in
order: no patch is refused, and none is met twice (`Graph.Storable.rebuild_capture`).
-/

open CatalogUnit

variable {U : Type}

namespace GraphFile

section Positions

variable {graph : Graph U}

/-- The number of a node is its position, as long as positions can be written down. -/
theorem nodeModule_index
    (representable : graph.modules.length ≤ UInt64.size)
    {id : ModuleId}
    (live : (graph.module? id).isSome) :
    nodeModule graph.modules.length (.ofNat (graph.index id)) = .ok (graph.index id) := by
  have below := Graph.index_lt live
  have written : (UInt64.ofNat (graph.index id)).toNat = graph.index id :=
    UInt64.toNat_ofNat_of_lt (below.trans_le representable)
  rw [nodeModule, written, if_pos below]

variable [UnitLike U]

theorem capturePatch?_of_fits
    {patch : Patch}
    (fits : graph.Fits patch) :
    capturePatch? graph patch =
      some
        ⟨.ofNat (graph.index patch.source.module), patch.source.socket,
          .ofNat (graph.index patch.target.module), patch.target.socket⟩ := by
  simp [capturePatch?, Graph.indexOf?_of_live fits.1.live, Graph.indexOf?_of_live fits.2.live]

end Positions

section Connections

variable [UnitLike U] {graph : Graph U}

/-- The modules of a graph under their new numbers, with some of the patches made. -/
def replayed (graph : Graph U) (made : List Patch) : Graph U :=
  { graph.renumber graph.numbering graph.modules.length with
    patches := made.map (·.renumber graph.numbering) }

/-- A captured patch is made, unless its sockets are joined already. -/
theorem addConnection_replayed
    (representable : graph.modules.length ≤ UInt64.size)
    {patch : Patch}
    {connection : FileConnection}
    (fits : graph.Fits patch)
    (captured : capturePatch? graph patch = some connection)
    {made : List Patch}
    (unjoined : ∀ other ∈ made, ¬ other.joinsSame patch) :
    addConnection graph.modules.length (replayed graph made) connection =
      .ok (replayed graph (made ++ [patch])) := by
  have injective := graph.numbering_injective
  rw [capturePatch?_of_fits fits, Option.some.injEq] at captured
  have newUnjoined :
      ∀ other ∈ (replayed graph made).patches, ¬ other.joinsSame (patch.renumber graph.numbering) := by
    intro other member
    obtain ⟨old, isMade, rfl⟩ := List.mem_map.mp member
    rw [Patch.joinsSame_renumber injective]
    exact unjoined old isMade
  have newFits : (replayed graph made).Fits (patch.renumber graph.numbering) :=
    fits.renumber injective graph.modules.length
  have connected := Graph.connect_of_fits newFits newUnjoined
  have absent :
      ¬ (replayed graph made).hasPatch
          (patch.renumber graph.numbering).source (patch.renumber graph.numbering).target := by
    rw [Graph.hasPatch, List.any_eq_true]
    rintro ⟨other, member, joins⟩
    exact newUnjoined other member joins
  have source :
      (⟨graph.index patch.source.module, patch.source.socket⟩ : Endpoint) =
        (patch.renumber graph.numbering).source := by
    simp [Patch.renumber, Endpoint.renumber, Graph.numbering_of_live fits.1.live]
  have target :
      (⟨graph.index patch.target.module, patch.target.socket⟩ : Endpoint) =
        (patch.renumber graph.numbering).target := by
    simp [Patch.renumber, Endpoint.renumber, Graph.numbering_of_live fits.2.live]
  subst captured
  simp only [addConnection, nodeModule_index representable fits.1.live,
    nodeModule_index representable fits.2.live, bind, Except.bind, source, target, if_neg absent,
    connected]
  simp [replayed]

/-- Captured patches are made one after the other. -/
theorem addConnections_replayed
    (representable : graph.modules.length ≤ UInt64.size)
    {made patches : List Patch}
    (fits : ∀ patch ∈ patches, graph.Fits patch)
    (distinct : (made ++ patches).Pairwise fun first second => ¬ first.joinsSame second) :
    addConnections graph.modules.length (replayed graph made)
        (patches.filterMap (capturePatch? graph)) =
      .ok (replayed graph (made ++ patches)) := by
  induction patches generalizing made with
  | nil =>
      simp [addConnections]
  | cons patch rest inductionHypothesis =>
      rw [List.forall_mem_cons] at fits
      have captured := capturePatch?_of_fits fits.1
      have unjoined : ∀ other ∈ made, ¬ other.joinsSame patch := fun other isMade =>
        (List.pairwise_append.mp distinct).2.2 other isMade patch List.mem_cons_self
      have one := addConnection_replayed representable fits.1 captured unjoined
      rw [List.append_cons] at distinct ⊢
      rw [List.filterMap_cons_some captured, addConnections]
      simp only [one, bind, Except.bind]
      exact inductionHypothesis fits.2 distinct

end Connections

section Nodes

variable [UnitLike U] [CatalogUnit U]

/-- The dials and the sample of a node bring back its unit. -/
theorem nodeUnit_captureModule
    {module : Module U}
    (tuned : Tuned module.unit) :
    nodeUnit registry withSample (captureModule sample? module) = .ok module.unit := by
  obtain ⟨new, created, newDials, restored⟩ := create?_kind module.unit
  have turned :
      turnDials new (captureModule sample? module).dials =
        withDials (UnitLike.dials module.unit) new :=
    tuned.foldl_values created newDials
  have whole := restored (UnitLike.dials module.unit)
  rw [withDials_dials] at whole
  simp only [nodeUnit, captureModule] at turned ⊢
  simp only [created, turned]
  exact congrArg Except.ok whole

/-- Captured modules are added in order, under the next numbers. -/
theorem addNodes_captureModule
    {modules : List (Module U)}
    (tuned : ∀ module ∈ modules, Tuned module.unit)
    (graph : Graph U) :
    addNodes registry withSample graph (modules.map (captureModule sample?)) =
      .ok
        { modules :=
            graph.modules
              ++ modules.mapIdx fun index module => { module with id := graph.nextId + index }
          patches := graph.patches
          nextId := graph.nextId + modules.length } := by
  induction modules generalizing graph with
  | nil =>
      simp [addNodes]
  | cons module rest inductionHypothesis =>
      rw [List.forall_mem_cons] at tuned
      have added :=
        inductionHypothesis tuned.2
          (graph.add module.unit (captureModule sample? module).position)
      simp only [List.map_cons, addNodes, nodeUnit_captureModule tuned.1, bind, Except.bind, added]
      simp [Graph.add, captureModule, List.mapIdx_cons, Nat.add_assoc, Nat.add_comm 1]

end Nodes

end GraphFile

section Storable

variable [UnitLike U] [CatalogUnit U]

/-- What a file relies on in a graph. -/
structure Graph.Storable (graph : Graph U) : Prop where
  numbered : graph.Numbered
  wellPatched : graph.WellPatched
  tuned : ∀ module ∈ graph.modules, Tuned module.unit

/-- Rebuilding a captured graph closes the gaps in its numbers and changes nothing else. -/
theorem Graph.Storable.rebuild_capture
    {graph : Graph U}
    (storable : graph.Storable)
    (representable : graph.modules.length ≤ UInt64.size) :
    GraphFile.rebuild registry withSample
        (graph.modules.map (GraphFile.captureModule sample?))
        (graph.patches.filterMap (GraphFile.capturePatch? graph)) =
      .ok graph.compact := by
  have compacted := compact_eq_renumber storable.numbered storable.wellPatched
  have placed :
      GraphFile.addNodes registry withSample .empty
          (graph.modules.map (GraphFile.captureModule sample?)) =
        .ok (GraphFile.replayed graph []) := by
    rw [GraphFile.addNodes_captureModule storable.tuned]
    have modules := congrArg Graph.modules compacted
    simp only [compact] at modules
    simp [GraphFile.replayed, Graph.empty, modules, Graph.renumber]
  have patched :=
    GraphFile.addConnections_replayed representable
      (fun patch member => storable.wellPatched.fits member)
      (show ([] ++ graph.patches).Pairwise _ from storable.wellPatched.not_joinsSame)
  simp only [GraphFile.rebuild, placed, bind, Except.bind, List.length_map, patched, compacted]
  rfl

/-- Capturing a compact graph gives the file of the graph. -/
theorem Graph.Storable.capture_compact
    {graph : Graph U}
    (storable : graph.Storable) :
    graph.compact.modules.map (GraphFile.captureModule sample?) =
        graph.modules.map (GraphFile.captureModule sample?) ∧
      graph.compact.patches.filterMap (GraphFile.capturePatch? graph.compact) =
        graph.patches.filterMap (GraphFile.capturePatch? graph) := by
  rw [compact_eq_renumber storable.numbered storable.wellPatched]
  have captured (patch : Patch) :
      GraphFile.capturePatch? (graph.renumber graph.numbering graph.modules.length)
          (patch.renumber graph.numbering) =
        GraphFile.capturePatch? graph patch := by
    simp [GraphFile.capturePatch?, Patch.renumber, Endpoint.renumber,
      indexOf?_renumber graph.numbering_injective]
  constructor
  · simp [renumber, GraphFile.captureModule]
  · have renumbered :
        (graph.renumber graph.numbering graph.modules.length).patches =
          graph.patches.map (·.renumber graph.numbering) := rfl
    rw [renumbered, List.filterMap_map]
    exact List.filterMap_congr fun patch _ => captured patch

end Storable

end SynthGraph
