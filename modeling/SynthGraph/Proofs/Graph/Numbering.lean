import SynthGraph.Proofs.Graph.WellPatched

namespace SynthGraph.Graph

/-!
# Module numbers

Modules stand in the order of their numbers, and all numbers are below the next
one to be given out.  Every operation keeps this so, hence a number names at
most one module.

A graph that grows by some units and patches keeps the units it has, and the
new ones are found under the next numbers (`Numbered.unit?_grow`).
-/

variable {U : Type}

/-- Numbers increase along the modules, and the next number is above all of them. -/
structure Numbered (graph : Graph U) : Prop where
  increasing : graph.modules.Pairwise fun first second => first.id < second.id
  below : ∀ module ∈ graph.modules, module.id < graph.nextId

theorem numbered_empty : (empty : Graph U).Numbered :=
  ⟨List.Pairwise.nil, by simp [empty]⟩

namespace Numbered

variable {graph : Graph U}

theorem add
    (numbered : graph.Numbered)
    (unit : U)
    (position : Position) :
    (graph.add unit position).Numbered := by
  constructor
  · simp only [Graph.add, List.pairwise_append, List.mem_singleton]
    refine ⟨numbered.increasing, List.pairwise_singleton _ _, ?_⟩
    rintro first member second rfl
    exact numbered.below first member
  · intro module member
    rcases List.mem_append.mp member with present | new
    · exact Nat.lt_succ_of_lt (numbered.below module present)
    · obtain rfl := List.mem_singleton.mp new
      exact Nat.lt_succ_self _

theorem remove?
    (numbered : graph.Numbered)
    {id : ModuleId}
    {unit : U}
    {rest : Graph U}
    (removed : graph.remove? id = some (unit, rest)) :
    rest.Numbered := by
  obtain ⟨_, modulesLeft, _, sameNext⟩ := remove?_some removed
  constructor
  · rw [modulesLeft]
    exact numbered.increasing.filter _
  · intro module member
    rw [modulesLeft] at member
    rw [sameNext]
    exact numbered.below module (List.mem_of_mem_filter member)

theorem updateModule
    (numbered : graph.Numbered)
    (id : ModuleId)
    {update : Module U → Module U}
    (keepsId : ∀ module, (update module).id = module.id) :
    (graph.updateModule id update).Numbered := by
  have sameId (module : Module U) :
      (if module.id = id then update module else module).id = module.id := by
    split
    · exact keepsId module
    · rfl
  constructor
  · rw [Graph.updateModule, List.pairwise_map]
    refine numbered.increasing.imp ?_
    intro first second before
    rw [sameId, sameId]
    exact before
  · intro module member
    obtain ⟨old, present, rfl⟩ := List.mem_map.mp member
    rw [sameId]
    exact numbered.below old present

theorem toggle
    (numbered : graph.Numbered)
    (patch : Patch) :
    (graph.toggle patch).2.Numbered := by
  constructor
  · rw [toggle_modules]
    exact numbered.increasing
  · rw [toggle_modules, toggle_nextId]
    exact numbered.below

/-- A module is found under its number. -/
theorem module?_of_mem
    (numbered : graph.Numbered)
    {module : Module U}
    (member : module ∈ graph.modules) :
    graph.module? module.id = some module := by
  cases found : graph.module? module.id with
  | none =>
      simpa using List.find?_eq_none.mp found module member
  | some other =>
      obtain ⟨otherMember, sameId⟩ := module?_some found
      have idsNodup : (graph.modules.map Module.id).Nodup :=
        List.pairwise_map.mpr (numbered.increasing.imp Nat.ne_of_lt)
      rw [List.inj_on_of_nodup_map idsNodup otherMember member sameId]

theorem unit?_of_mem
    (numbered : graph.Numbered)
    {module : Module U}
    (member : module ∈ graph.modules) :
    graph.unit? module.id = some module.unit := by
  rw [unit?, numbered.module?_of_mem member]
  rfl

theorem lt_nextId
    (numbered : graph.Numbered)
    {id : ModuleId}
    {unit : U}
    (found : graph.unit? id = some unit) :
    id < graph.nextId := by
  obtain ⟨module, isModule, _⟩ := Option.map_eq_some_iff.mp found
  obtain ⟨member, rfl⟩ := module?_some isModule
  exact numbered.below module member

variable [UnitLike U]

theorem apply
    (numbered : graph.Numbered)
    (operation : Operation U) :
    (graph.apply operation).Numbered := by
  cases operation with
  | add unit position =>
      exact numbered.add unit position
  | remove id =>
      simp only [Graph.apply]
      split
      · rename_i removed
        exact numbered.remove? removed
      · exact numbered
  | setDial id dial value =>
      simp only [Graph.apply]
      cases isTurned : graph.setDial? id dial value with
      | none =>
          exact numbered
      | some turned =>
          obtain ⟨_, _, _, _, rfl⟩ := setDial?_some isTurned
          exact numbered.updateModule id fun _ => rfl
  | connect first second =>
      simp only [Graph.apply]
      split
      · rename_i isPatched
        obtain ⟨patch, _, toggled⟩ := connect_eq_ok_iff.mp isPatched
        have kept := numbered.toggle patch
        rw [toggled] at kept
        exact kept
      · exact numbered

end Numbered

section Growth

/-- New modules for some units, all in the upper left corner. -/
def place (start : ModuleId) : List U → List (Module U)
  | [] => []
  | unit :: rest => ⟨start, .origin, unit⟩ :: place (start + 1) rest

/-- A graph with modules for some more units and with some more patches. -/
def grow (graph : Graph U) (units : List U) (patches : List Patch) : Graph U :=
  { modules := graph.modules ++ place graph.nextId units
    patches := graph.patches ++ patches
    nextId := graph.nextId + units.length }

theorem length_place
    (start : ModuleId)
    (units : List U) :
    (place start units).length = units.length := by
  induction units generalizing start with
  | nil =>
      rfl
  | cons unit rest inductionHypothesis =>
      exact congrArg Nat.succ (inductionHypothesis (start + 1))

theorem place_append
    (start : ModuleId)
    (units others : List U) :
    place start (units ++ others) = place start units ++ place (start + units.length) others := by
  induction units generalizing start with
  | nil =>
      rfl
  | cons unit rest inductionHypothesis =>
      simp only [List.cons_append, place, inductionHypothesis, List.length_cons]
      rw [Nat.add_assoc start 1, Nat.add_comm 1]

theorem grow_grow
    (graph : Graph U)
    (units others : List U)
    (patches more : List Patch) :
    (graph.grow units patches).grow others more = graph.grow (units ++ others) (patches ++ more) := by
  simp [grow, place_append, Nat.add_assoc]

theorem add_eq_grow
    (graph : Graph U)
    (unit : U) :
    graph.add unit .origin = graph.grow [unit] [] := by
  simp [add, grow, place]

theorem place_find?
    (start : Nat)
    (units : List U)
    (id : Nat) :
    ((place start units).find? (·.id = id)).map Module.unit =
      if start ≤ id then units[id - start]? else none := by
  induction units generalizing start with
  | nil =>
      simp [place]
  | cons unit rest inductionHypothesis =>
      by_cases isFirst : start = id
      · simp [place, isFirst]
      · rw [place, List.find?_cons_of_neg (by simpa using isFirst), inductionHypothesis]
        by_cases after : start + 1 ≤ id
        · have before : start ≤ id := Nat.le_of_succ_le after
          have next : id - start = (id - (start + 1)) + 1 := by
            omega
          rw [if_pos after, if_pos before, next, List.getElem?_cons_succ]
        · have notBefore : ¬ start ≤ id := by
            omega
          rw [if_neg after, if_neg notBefore]

variable {graph : Graph U}

/-- A grown graph has its old units and, under the next numbers, the new ones. -/
theorem Numbered.unit?_grow
    (numbered : graph.Numbered)
    (units : List U)
    (patches : List Patch)
    (id : ModuleId) :
    (graph.grow units patches).unit? id =
      if id < graph.nextId then graph.unit? id else units[id - graph.nextId]? := by
  have parts :
      (graph.grow units patches).unit? id =
        (graph.unit? id).or
          (if graph.nextId ≤ id then units[id - graph.nextId]? else none) := by
    simp only [unit?, module?, grow, List.find?_append, Option.map_or, place_find?]
  rw [parts]
  by_cases old : id < graph.nextId
  · simp [old, Nat.not_le_of_lt old]
  · have new : graph.unit? id = none := by
      cases found : graph.unit? id with
      | none =>
          rfl
      | some unit =>
          exact absurd (numbered.lt_nextId found) old
    simp [old, new, Nat.le_of_not_lt old]

theorem Numbered.unit?_grow_of_some
    (numbered : graph.Numbered)
    {id : ModuleId}
    {unit : U}
    (found : graph.unit? id = some unit)
    (units : List U)
    (patches : List Patch) :
    (graph.grow units patches).unit? id = some unit := by
  rw [numbered.unit?_grow, if_pos (numbered.lt_nextId found), found]

theorem Numbered.grow
    (numbered : graph.Numbered)
    (units : List U)
    (patches : List Patch) :
    (graph.grow units patches).Numbered := by
  induction units generalizing graph with
  | nil =>
      constructor
      · simpa [Graph.grow, place] using numbered.increasing
      · simpa [Graph.grow, place] using numbered.below
  | cons unit rest inductionHypothesis =>
      have added := inductionHypothesis (numbered.add unit .origin)
      rw [add_eq_grow, grow_grow, List.nil_append] at added
      exact added

variable [UnitLike U]

theorem HasSocket.grow
    {endpoint : Endpoint}
    {direction : Direction}
    {signal : Signal}
    (present : graph.HasSocket endpoint direction signal)
    (numbered : graph.Numbered)
    (units : List U)
    (patches : List Patch) :
    (graph.grow units patches).HasSocket endpoint direction signal := by
  apply present.of_unit?
  intro unit found
  exact ⟨unit, numbered.unit?_grow_of_some found units patches, rfl⟩

/-- The sockets of the units by which a graph grows. -/
theorem Numbered.hasSocket_new
    (numbered : graph.Numbered)
    {units : List U}
    {place : Nat}
    {unit : U}
    (atPlace : units[place]? = some unit)
    {name : String}
    {direction : Direction}
    {signal : Signal}
    (isSocket : UnitLike.socket? unit name = some ⟨name, direction, signal⟩)
    (patches : List Patch) :
    (graph.grow units patches).HasSocket ⟨graph.nextId + place, name⟩ direction signal := by
  refine ⟨unit, ?_, isSocket⟩
  have notOld : ¬ graph.nextId + place < graph.nextId :=
    Nat.not_lt.mpr (Nat.le_add_right _ _)
  rw [numbered.unit?_grow, if_neg notOld, Nat.add_sub_cancel_left, atPlace]

/-- Connecting sockets that no patch joins appends their patch. -/
theorem WellPatched.connect_new
    (wellPatched : graph.WellPatched)
    {patch : Patch}
    (fits : graph.Fits patch)
    (new : ∀ other ∈ graph.patches, other.source = patch.source → other.target ≠ patch.target) :
    graph.connect patch.source patch.target = .ok (.connected, graph.grow [] [patch]) := by
  have grown :
      graph.grow [] [patch] = { graph with patches := graph.patches ++ [patch] } := by
    simp [Graph.grow, Graph.place]
  rw [grown]
  refine connect_of_fits fits ?_
  intro other member joins
  simp only [Patch.joinsSame, Bool.or_eq_true, Bool.and_eq_true, decide_eq_true_eq] at joins
  rcases joins with ⟨source, target⟩ | ⟨source, _⟩
  · exact new other member source target
  · -- An output is no input, so no patch leads the other way.
    have otherSource := wellPatched.source_output other member
    rw [source] at otherSource
    cases (otherSource.unique fits.2).1

end Growth

end SynthGraph.Graph
