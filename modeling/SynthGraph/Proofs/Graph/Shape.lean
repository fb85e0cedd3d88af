import SynthGraph.Proofs.Graph.Locality
import SynthGraph.Proofs.Graph.Meaning
import SynthGraph.Proofs.Graph.Renumbering

namespace SynthGraph.Graph

/-!
# Graphs of one shape

Two graphs have one shape behind their sinks if a one-to-one correspondence of the
modules there keeps the sinks, the units and, in their order, the patches.  They
then reduce to the same emissions, module for module (`SameShape.get?_reduce`),
however their modules are numbered and whatever else they hold.
-/

variable {U : Type}

/-- The ends of a patch after modules get other numbers. -/
def renumberCable
    (number : ModuleId → ModuleId)
    (cable : Endpoint × Endpoint) :
    Endpoint × Endpoint :=
  (cable.1.renumber number, cable.2.renumber number)

/-- The part of one graph behind its sinks is the part of another behind its own. -/
structure SameShape
    (number : ModuleId → ModuleId)
    (graph : Graph U)
    (sinks : List ModuleId)
    (other : Graph U)
    (others : List ModuleId) :
    Prop where
  /-- Sinks correspond to sinks. -/
  sinks_eq : others = sinks.map number
  /-- Every module of either part corresponds to one of the other part. -/
  bijective : Set.BijOn number { id | graph.Behind sinks id } { id | other.Behind others id }
  /-- Corresponding modules have the same units, with the same dials. -/
  units : ∀ id, graph.Behind sinks id → other.unit? (number id) = graph.unit? id
  /-- The patches that lead to the parts correspond, in their order and with their sockets. -/
  cables : other.cables others = (graph.cables sinks).map (renumberCable number)

theorem mem_ids_of_unit?
    {graph : Graph U}
    {id : ModuleId}
    {unit : U}
    (found : graph.unit? id = some unit) :
    id ∈ graph.modules.map Module.id := by
  obtain ⟨module, isModule, _⟩ := Option.map_eq_some_iff.mp found
  obtain ⟨member, sameId⟩ := module?_some isModule
  exact sameId ▸ List.mem_map_of_mem member

/-- Different numbers for some modules can be continued to all modules. -/
theorem exists_injective_extension
    (number : ModuleId → ModuleId)
    (ids : List ModuleId)
    (different : ∀ first ∈ ids, ∀ second ∈ ids, number first = number second → first = second) :
    ∃ total : ModuleId → ModuleId,
      Function.Injective total ∧ ∀ id ∈ ids, total id = number id := by
  let bound : Nat := (ids.map number).sum + 1
  let total : ModuleId → ModuleId := fun id => if id ∈ ids then number id else bound + id
  have below (id : ModuleId) (member : id ∈ ids) : number id < bound :=
    Nat.lt_succ_of_le (List.single_le_sum (by simp) _ (List.mem_map_of_mem member))
  refine ⟨total, ?_, fun id member => if_pos member⟩
  intro first second same
  by_cases firstMember : first ∈ ids <;> by_cases secondMember : second ∈ ids <;>
    simp only [total, firstMember, secondMember, if_true, if_false] at same
  · exact different first firstMember second secondMember same
  · have firstBelow := (below first firstMember).trans_le (Nat.le_add_right bound second)
    exact absurd same (Nat.ne_of_lt firstBelow)
  · have secondBelow := (below second secondMember).trans_le (Nat.le_add_right bound first)
    exact absurd same.symm (Nat.ne_of_lt secondBelow)
  · exact Nat.add_left_cancel same

section Renumbering

variable
  {number : ModuleId → ModuleId}
  (injective : Function.Injective number)
  (next : ModuleId)
  {graph : Graph U}
  {sinks : List ModuleId}

include injective

theorem behind_renumber
    {id : ModuleId} :
    (graph.renumber number next).Behind (sinks.map number) (number id) ↔
      graph.Behind sinks id := by
  rw [← mem_discover, discover_renumber injective, List.mem_map_of_injective injective,
    mem_discover]

theorem live_renumber
    (live : ∀ sink ∈ sinks, (graph.module? sink).isSome) :
    ∀ sink ∈ sinks.map number, ((graph.renumber number next).module? sink).isSome := by
  intro sink isSink
  obtain ⟨old, isOld, rfl⟩ := List.mem_map.mp isSink
  simpa [module?_renumber injective] using live old isOld

theorem exists_of_behind_renumber
    {id : ModuleId}
    (behind : (graph.renumber number next).Behind (sinks.map number) id) :
    ∃ old, graph.Behind sinks old ∧ number old = id := by
  rw [← mem_discover, discover_renumber injective, List.mem_map] at behind
  obtain ⟨old, isDiscovered, isNumber⟩ := behind
  exact ⟨old, mem_discover.mp isDiscovered, isNumber⟩

theorem cables_renumber :
    (graph.renumber number next).cables (sinks.map number) =
      (graph.cables sinks).map (renumberCable number) := by
  have selected (patch : Patch) :
      decide ((graph.renumber number next).Behind (sinks.map number)
          (patch.renumber number).target.module) =
        decide (graph.Behind sinks patch.target.module) := by
    rw [decide_eq_decide]
    exact behind_renumber injective next
  simp only [cables, renumber, List.filter_map, List.map_map]
  congr 1
  apply List.filter_congr
  intro patch _
  exact selected patch

theorem WellPatched.renumber
    [UnitLike U]
    (wellPatched : graph.WellPatched) :
    (graph.renumber number next).WellPatched := by
  refine (wellPatched_iff _).mpr ⟨?_, ?_⟩
  · intro patch member
    obtain ⟨old, isOld, rfl⟩ := List.mem_map.mp member
    exact (wellPatched.fits isOld).renumber injective next
  · rw [Graph.renumber, List.pairwise_map]
    apply wellPatched.not_joinsSame.imp
    intro first second different
    rwa [Patch.joinsSame_renumber injective]

end Renumbering

/-- Cables are renumbered alike by what agrees on the modules behind the sinks. -/
theorem renumberCable_congr
    {number total : ModuleId → ModuleId}
    {graph : Graph U}
    {sinks : List ModuleId}
    (same : ∀ id, graph.Behind sinks id → total id = number id)
    {cable : Endpoint × Endpoint}
    (isCable : cable ∈ graph.cables sinks) :
    renumberCable total cable = renumberCable number cable := by
  obtain ⟨targetBehind, patch, member, rfl⟩ := mem_cables.mp isCable
  have sourceBehind := targetBehind.of_feeds ⟨patch, member, rfl, rfl⟩
  simp only [Patch.ends] at targetBehind
  simp only [renumberCable, Patch.ends, Endpoint.renumber, same _ sourceBehind,
    same _ targetBehind]

/-- Whether parts have one shape is seen from the orders in which they are discovered. -/
theorem SameShape.of_discover
    {number : ModuleId → ModuleId}
    {graph other : Graph U}
    {sinks others : List ModuleId}
    (sinks_eq : others = sinks.map number)
    (discovered : other.discover others = (graph.discover sinks).map number)
    (units : ∀ id ∈ graph.discover sinks, other.unit? (number id) = graph.unit? id)
    (cables : other.cables others = (graph.cables sinks).map (renumberCable number)) :
    SameShape number graph sinks other others := by
  have numbersNodup := nodup_discover other others
  rw [discovered] at numbersNodup
  refine ⟨sinks_eq, ⟨?_, ?_, ?_⟩, fun id behind => units id (mem_discover.mpr behind), cables⟩
  · intro id behind
    apply mem_discover.mp
    rw [discovered]
    exact List.mem_map_of_mem (mem_discover.mpr behind)
  · intro first firstBehind second secondBehind same
    exact List.inj_on_of_nodup_map numbersNodup (mem_discover.mpr firstBehind)
      (mem_discover.mpr secondBehind) same
  · intro id behind
    have isDiscovered := mem_discover.mpr behind
    rw [discovered] at isDiscovered
    obtain ⟨old, isOld, isNumber⟩ := List.mem_map.mp isDiscovered
    exact ⟨old, mem_discover.mp isOld, isNumber⟩

/-- Graphs that look the same after one gets other numbers have one shape. -/
theorem SameShape.of_agreesBehind
    {number total : ModuleId → ModuleId}
    (injective : Function.Injective total)
    {graph other : Graph U}
    {sinks : List ModuleId}
    (live : ∀ sink ∈ sinks, (graph.module? sink).isSome)
    (continues : ∀ id, graph.Behind sinks id → total id = number id)
    {next : ModuleId}
    (agrees : (graph.renumber total next).AgreesBehind other (sinks.map total)) :
    SameShape number graph sinks other (sinks.map number) := by
  have sameSinks : sinks.map number = sinks.map total := by
    apply List.map_congr_left
    intro sink isSink
    exact (continues sink ⟨sink, isSink, live sink isSink, .refl⟩).symm
  have behind_total {id : ModuleId} (behind : graph.Behind sinks id) :
      other.Behind (sinks.map total) (total id) :=
    agrees.behind_iff.mpr ((behind_renumber injective next).mpr behind)
  rw [sameSinks]
  refine ⟨sameSinks.symm, ⟨?_, ?_, ?_⟩, ?_, ?_⟩
  · intro id behind
    rw [← continues id behind]
    exact behind_total behind
  · intro first firstBehind second secondBehind same
    rw [← continues first firstBehind, ← continues second secondBehind] at same
    exact injective same
  · intro id behind
    obtain ⟨old, oldBehind, rfl⟩ :=
      exists_of_behind_renumber injective next (agrees.behind_iff.mp behind)
    exact ⟨old, oldBehind, (continues old oldBehind).symm⟩
  · intro id behind
    have renumbered := (behind_renumber injective next).mpr behind
    rw [← continues id behind, agrees.units _ renumbered, unit?_renumber injective]
  · rw [agrees.cables, cables_renumber injective]
    apply List.map_congr_left
    intro cable isCable
    exact renumberCable_congr continues isCable

namespace SameShape

variable
  {number : ModuleId → ModuleId}
  {graph other : Graph U}
  {sinks others : List ModuleId}
  (sameShape : SameShape number graph sinks other others)
  (live : ∀ sink ∈ sinks, (graph.module? sink).isSome)

include sameShape live

theorem sinks_eq_map
    {total : ModuleId → ModuleId}
    (continues : ∀ id, graph.Behind sinks id → total id = number id) :
    others = sinks.map total := by
  rw [sameShape.sinks_eq]
  apply List.map_congr_left
  intro sink isSink
  exact (continues sink ⟨sink, isSink, live sink isSink, .refl⟩).symm

/-- With the numbers of the second graph the first looks the same from the sinks. -/
theorem agreesBehind
    {total : ModuleId → ModuleId}
    (injective : Function.Injective total)
    (continues : ∀ id, graph.Behind sinks id → total id = number id)
    (next : ModuleId) :
    (graph.renumber total next).AgreesBehind other (sinks.map total) := by
  have units (id : ModuleId) (behind : (graph.renumber total next).Behind (sinks.map total) id) :
      other.unit? id = (graph.renumber total next).unit? id := by
    obtain ⟨old, oldBehind, rfl⟩ := exists_of_behind_renumber injective next behind
    rw [unit?_renumber injective, continues old oldBehind, sameShape.units old oldBehind]
  refine ⟨same_live_of_units (live_renumber injective next live) units, units, ?_⟩
  have sameCables := sameShape.cables
  rw [sameShape.sinks_eq_map live continues] at sameCables
  rw [sameCables, cables_renumber injective]
  apply List.map_congr_left
  intro cable isCable
  exact (renumberCable_congr continues isCable).symm

variable [UnitLike U] [LawfulUnit U]

/-- Corresponding modules emit the same. -/
theorem get?_reduce
    (wellPatched : graph.WellPatched)
    (otherWellPatched : other.WellPatched)
    (context : UnitLike.Context U)
    {id : ModuleId}
    (behind : graph.Behind sinks id) :
    (other.reduce context others).get? (number id) = (graph.reduce context sinks).get? id := by
  obtain ⟨total, injective, extendsDiscovered⟩ :=
    exists_injective_extension number (graph.discover sinks) <| by
      intro first firstMember second secondMember
      exact sameShape.bijective.injOn (mem_discover.mp firstMember) (mem_discover.mp secondMember)
  have continues (id : ModuleId) (behind : graph.Behind sinks id) : total id = number id :=
    extendsDiscovered id (mem_discover.mpr behind)
  have agrees := sameShape.agreesBehind live injective continues graph.nextId
  have reduced := agrees.reduce_eq (wellPatched.renumber injective _) otherWellPatched context
  rw [sameShape.sinks_eq_map live continues, reduced, reduce_renumber injective,
    ← continues id behind, Emissions.get?_renumber injective]

end SameShape

/--
The same modules, in any order and under any numbers, and the same patches in
their order.
-/
structure Reordered (number : ModuleId → ModuleId) (graph other : Graph U) : Prop where
  modules :
    (other.modules.map fun module => (module.id, module.unit)).Perm
      (graph.modules.map fun module => (number module.id, module.unit))
  patches : other.patches.map Patch.ends = (graph.patches.map Patch.ends).map (renumberCable number)

namespace Reordered

variable
  {number : ModuleId → ModuleId}
  {graph other : Graph U}
  (reordered : Reordered number graph other)

include reordered

section Numbers

variable (numbered : other.Numbered)

include numbered

theorem unit?_eq
    {id : ModuleId}
    {unit : U}
    (found : graph.unit? id = some unit) :
    other.unit? (number id) = some unit := by
  obtain ⟨module, isModule, rfl⟩ := Option.map_eq_some_iff.mp found
  obtain ⟨member, rfl⟩ := module?_some isModule
  have isThere : (number module.id, module.unit) ∈
      other.modules.map fun module => (module.id, module.unit) :=
    reordered.modules.mem_iff.mpr (List.mem_map_of_mem member)
  obtain ⟨moved, movedMember, same⟩ := List.mem_map.mp isThere
  simp only [Prod.mk.injEq] at same
  rw [← same.1, ← same.2]
  exact numbered.unit?_of_mem movedMember

/-- Modules that are there keep different numbers. -/
theorem number_inj
    {first second : ModuleId}
    (firstMember : first ∈ graph.modules.map Module.id)
    (secondMember : second ∈ graph.modules.map Module.id)
    (same : number first = number second) :
    first = second := by
  have numbersNodup : ((graph.modules.map Module.id).map number).Nodup := by
    have ids := reordered.modules.map Prod.fst
    simp only [List.map_map, Function.comp_def] at ids
    rw [List.map_map]
    exact ids.nodup_iff.mp (List.pairwise_map.mpr (numbered.increasing.imp Nat.ne_of_lt))
  exact List.inj_on_of_nodup_map numbersNodup firstMember secondMember same

end Numbers

/-- The patches of the other graph are those of this one under any numbers that continue. -/
theorem ends_renumber
    [UnitLike U]
    (wellPatched : graph.WellPatched)
    {total : ModuleId → ModuleId}
    (continues : ∀ id ∈ graph.modules.map Module.id, total id = number id)
    (next : ModuleId) :
    other.patches.map Patch.ends = (graph.renumber total next).patches.map Patch.ends := by
  have isThere {endpoint : Endpoint} {direction : Direction} {signal : Signal}
      (present : graph.HasSocket endpoint direction signal) :
      total endpoint.module = number endpoint.module := by
    obtain ⟨unit, found, _⟩ := present
    exact continues _ (mem_ids_of_unit? found)
  rw [reordered.patches, renumber, List.map_map, List.map_map]
  apply List.map_congr_left
  intro patch member
  obtain ⟨sourceFits, targetFits⟩ := wellPatched.fits member
  simp only [Function.comp_apply, renumberCable, Patch.ends, Patch.renumber, Endpoint.renumber,
    isThere sourceFits, isThere targetFits]

/-- Under the numbers of the other graph everything looks the same. -/
theorem agreesBehind
    [UnitLike U]
    (wellPatched : graph.WellPatched)
    (numbered : other.Numbered)
    {sinks : List ModuleId}
    (live : ∀ sink ∈ sinks, (graph.module? sink).isSome)
    {total : ModuleId → ModuleId}
    (injective : Function.Injective total)
    (continues : ∀ id ∈ graph.modules.map Module.id, total id = number id)
    (next : ModuleId) :
    (graph.renumber total next).AgreesBehind other (sinks.map total) := by
  have units (id : ModuleId) (behind : (graph.renumber total next).Behind (sinks.map total) id) :
      other.unit? id = (graph.renumber total next).unit? id := by
    obtain ⟨old, oldBehind, rfl⟩ := exists_of_behind_renumber injective next behind
    obtain ⟨unit, found⟩ := oldBehind.unit?_isSome wellPatched
    rw [unit?_renumber injective, continues old (mem_ids_of_unit? found), found]
    exact reordered.unit?_eq numbered found
  apply AgreesBehind.of_patches _ units
  · have sameEnds := reordered.ends_renumber wellPatched continues next
    have sameCables :=
      congrArg
        (List.filter fun cable : Endpoint × Endpoint =>
          (graph.renumber total next).Behind (sinks.map total) cable.2.module)
        sameEnds
    rw [List.filter_map, List.filter_map] at sameCables
    exact sameCables
  · exact same_live_of_units (live_renumber injective next live) units

/-- What the same modules and patches see from the same sinks has the same shape. -/
theorem sameShape
    [UnitLike U]
    (wellPatched : graph.WellPatched)
    (numbered : other.Numbered)
    {sinks : List ModuleId}
    (live : ∀ sink ∈ sinks, (graph.module? sink).isSome) :
    SameShape number graph sinks other (sinks.map number) := by
  obtain ⟨total, injective, continues⟩ :=
    exists_injective_extension number (graph.modules.map Module.id)
      fun first firstMember second secondMember =>
        reordered.number_inj numbered firstMember secondMember
  have agrees :=
    reordered.agreesBehind wellPatched numbered live injective continues graph.nextId
  apply SameShape.of_agreesBehind injective live _ agrees
  intro id behind
  obtain ⟨unit, found⟩ := behind.unit?_isSome wellPatched
  exact continues id (mem_ids_of_unit? found)

end Reordered

end SynthGraph.Graph
