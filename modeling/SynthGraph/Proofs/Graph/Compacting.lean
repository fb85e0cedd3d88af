import SynthGraph.Proofs.Graph.Renumbering

namespace SynthGraph.Graph

/-!
# Compact graphs

Numbering the modules of a graph from zero, in their order, closes the gaps that
removed modules left.  In a numbered graph whose patches end at modules that are
there this gives every module a number of its own (`compact_eq_renumber`).
-/

variable {U : Type}

/-- Where a module stands among the modules. -/
def index (graph : Graph U) (id : ModuleId) : ModuleId :=
  graph.modules.findIdx (·.id = id)

/-- The graph with its modules numbered from zero. -/
def compact (graph : Graph U) : Graph U :=
  { modules := graph.modules.mapIdx fun index module => { module with id := index }
    patches := graph.patches.map (·.renumber graph.index)
    nextId := graph.modules.length }

/-- The positions of modules, continued by numbers past them for modules that are not there. -/
def numbering (graph : Graph U) (id : ModuleId) : ModuleId :=
  if (graph.module? id).isSome then graph.index id else graph.modules.length + id

section Numbering

variable {graph : Graph U} {id : ModuleId}

theorem index_lt
    (live : (graph.module? id).isSome) :
    graph.index id < graph.modules.length := by
  rw [index, List.findIdx_lt_length]
  simpa [module?] using live

/-- A module that is there stands at its position. -/
theorem getElem?_index
    (live : (graph.module? id).isSome) :
    ∃ module, graph.modules[graph.index id]? = some module ∧ module.id = id := by
  have stands := List.getElem?_eq_getElem (index_lt live)
  have isFound := List.findIdx_of_getElem?_eq_some stands
  exact ⟨_, stands, of_decide_eq_true isFound⟩

theorem indexOf?_of_live
    (live : (graph.module? id).isSome) :
    graph.indexOf? id = some (graph.index id) :=
  List.findIdx?_eq_some_iff_findIdx_eq.mpr ⟨index_lt live, rfl⟩

theorem numbering_of_live
    (live : (graph.module? id).isSome) :
    graph.numbering id = graph.index id :=
  if_pos live

theorem numbering_injective
    (graph : Graph U) :
    Function.Injective graph.numbering := by
  intro first second same
  by_cases firstLive : (graph.module? first).isSome
  · have firstBefore := (index_lt firstLive).trans_le (Nat.le_add_right _ second)
    by_cases secondLive : (graph.module? second).isSome
    · obtain ⟨firstModule, firstStands, rfl⟩ := getElem?_index firstLive
      obtain ⟨secondModule, secondStands, rfl⟩ := getElem?_index secondLive
      rw [numbering_of_live firstLive, numbering_of_live secondLive] at same
      rw [same, secondStands, Option.some.injEq] at firstStands
      rw [firstStands]
    · rw [numbering_of_live firstLive, numbering, if_neg secondLive] at same
      exact absurd same (Nat.ne_of_lt firstBefore)
  · rw [numbering, if_neg firstLive] at same
    by_cases secondLive : (graph.module? second).isSome
    · have secondBefore := (index_lt secondLive).trans_le (Nat.le_add_right _ first)
      rw [numbering_of_live secondLive] at same
      exact absurd same.symm (Nat.ne_of_lt secondBefore)
    · rw [numbering, if_neg secondLive] at same
      exact Nat.add_left_cancel same

/-- In a numbered graph no earlier module has the number of the one at a position. -/
theorem Numbered.index_getElem
    (numbered : graph.Numbered)
    {place : Nat}
    {module : Module U}
    (atPlace : graph.modules[place]? = some module) :
    graph.index module.id = place := by
  obtain ⟨inside, rfl⟩ := List.getElem?_eq_some_iff.mp atPlace
  refine (List.findIdx_eq inside).mpr ⟨by simp, ?_⟩
  intro earlier before
  have smaller :=
    List.pairwise_iff_getElem.mp numbered.increasing earlier place (before.trans inside) inside
      before
  simpa using Nat.ne_of_lt smaller

end Numbering

variable [UnitLike U] {graph : Graph U}

theorem HasSocket.live
    {endpoint : Endpoint}
    {direction : Direction}
    {signal : Signal}
    (present : graph.HasSocket endpoint direction signal) :
    (graph.module? endpoint.module).isSome := by
  obtain ⟨unit, found, _⟩ := present
  obtain ⟨module, isModule, _⟩ := Option.map_eq_some_iff.mp found
  rw [isModule]
  rfl

theorem WellPatched.renumber_index
    (wellPatched : graph.WellPatched)
    {patch : Patch}
    (member : patch ∈ graph.patches) :
    patch.renumber graph.index = patch.renumber graph.numbering := by
  obtain ⟨source, target⟩ := wellPatched.fits member
  simp only [Patch.renumber, Endpoint.renumber, numbering_of_live source.live,
    numbering_of_live target.live]

/-- A compact graph is the graph with other numbers for its modules. -/
theorem compact_eq_renumber
    (numbered : graph.Numbered)
    (wellPatched : graph.WellPatched) :
    graph.compact = graph.renumber graph.numbering graph.modules.length := by
  have modules :
      (graph.modules.mapIdx fun index module => { module with id := index }) =
        graph.modules.map fun module => { module with id := graph.numbering module.id } := by
    apply List.ext_getElem?
    intro place
    rw [List.getElem?_mapIdx, List.getElem?_map]
    cases atPlace : graph.modules[place]? with
    | none =>
        rfl
    | some module =>
        have live : (graph.module? module.id).isSome := by
          rw [numbered.module?_of_mem (List.mem_of_getElem? atPlace)]
          rfl
        simp only [Option.map_some, numbering_of_live live, numbered.index_getElem atPlace]
  have patches :
      graph.patches.map (·.renumber graph.index) =
        graph.patches.map (·.renumber graph.numbering) :=
    List.map_congr_left fun patch member => wellPatched.renumber_index member
  rw [compact, modules, patches, renumber]

end SynthGraph.Graph
