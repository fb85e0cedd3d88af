import SynthGraph.Proofs.Graph.Compacting

namespace SynthGraph.Graph

/-!
# Searching modules

Modules stand in the order of their numbers, so a number can be searched for by
halving the stretch of modules where it may stand.  In a numbered graph this
finds what looking at one module after the other finds
(`Numbered.search?_eq_indexOf?`).
-/

variable {U : Type}

/--
The place among `size` modules from `base` on where a number has to stand, if it
stands there at all: from the middle on, unless the middle is above it.
-/
def narrow (modules : List (Module U)) (id : ModuleId) (base size : Nat) : Nat :=
  if size ≤ 1 then
    base
  else
    let half := size / 2
    match modules[base + half]? with
    | some middle =>
        if id < middle.id then
          narrow modules id base (size - half)
        else
          narrow modules id (base + half) (size - half)
    | none => base
termination_by size

/-- The place of a module, found by halving. -/
def search? (graph : Graph U) (id : ModuleId) : Option Nat :=
  let place := narrow graph.modules id 0 graph.modules.length
  match graph.modules[place]? with
  | some module => if module.id = id then some place else none
  | none => none

namespace Numbered

variable {graph : Graph U} {id : ModuleId} {place : Nat}

theorem id_lt_id
    (numbered : graph.Numbered)
    {first second : Nat}
    {firstModule secondModule : Module U}
    (before : first < second)
    (atFirst : graph.modules[first]? = some firstModule)
    (atSecond : graph.modules[second]? = some secondModule) :
    firstModule.id < secondModule.id := by
  obtain ⟨firstInside, rfl⟩ := List.getElem?_eq_some_iff.mp atFirst
  obtain ⟨secondInside, rfl⟩ := List.getElem?_eq_some_iff.mp atSecond
  exact List.pairwise_iff_getElem.mp numbered.increasing first second firstInside secondInside before

/-- A module stays in the stretch that is halved, down to its own place. -/
theorem narrow_eq
    (numbered : graph.Numbered)
    {module : Module U}
    (atPlace : graph.modules[place]? = some module)
    {base size : Nat}
    (inside : base + size ≤ graph.modules.length)
    (fromBase : base ≤ place)
    (beforeEnd : place < base + size) :
    narrow graph.modules module.id base size = place := by
  fun_induction narrow graph.modules module.id base size with
  | case1 base size single =>
      omega
  | case2 base size several half middle atMiddle below inductionHypothesis =>
      have beforeMiddle : place < base + half := by
        by_contra notBefore
        rcases Nat.eq_or_lt_of_le (Nat.le_of_not_lt notBefore) with same | after
        · rw [same, atPlace, Option.some.injEq] at atMiddle
          rw [atMiddle] at below
          exact Nat.lt_irrefl _ below
        · exact Nat.lt_asymm below (numbered.id_lt_id after atMiddle atPlace)
      exact inductionHypothesis (by omega) fromBase (by omega)
  | case3 base size several half middle atMiddle notBelow inductionHypothesis =>
      have fromMiddle : base + half ≤ place := by
        by_contra before
        exact notBelow (numbered.id_lt_id (Nat.lt_of_not_le before) atPlace atMiddle)
      exact inductionHypothesis (by omega) fromMiddle (by omega)
  | case4 base size several half outside =>
      rw [List.getElem?_eq_none_iff] at outside
      omega

theorem indexOf?_eq_some_iff
    (numbered : graph.Numbered) :
    graph.indexOf? id = some place ↔
      ∃ module, graph.modules[place]? = some module ∧ module.id = id := by
  constructor
  · intro found
    obtain ⟨inside, isFound, _⟩ := List.findIdx?_eq_some_iff_getElem.mp found
    exact ⟨_, List.getElem?_eq_getElem inside, of_decide_eq_true isFound⟩
  · rintro ⟨module, atPlace, rfl⟩
    have live : (graph.module? module.id).isSome := by
      rw [numbered.module?_of_mem (List.mem_of_getElem? atPlace)]
      rfl
    rw [indexOf?_of_live live, numbered.index_getElem atPlace]

theorem search?_eq_some_iff
    (numbered : graph.Numbered) :
    graph.search? id = some place ↔
      ∃ module, graph.modules[place]? = some module ∧ module.id = id := by
  constructor
  · intro found
    simp only [search?] at found
    split at found
    · rename_i module atPlace
      split at found
      · rename_i isNamed
        cases found
        exact ⟨module, atPlace, isNamed⟩
      · cases found
    · cases found
  · rintro ⟨module, atPlace, rfl⟩
    have inside := (List.getElem?_eq_some_iff.mp atPlace).1
    have isPlace : narrow graph.modules module.id 0 graph.modules.length = place :=
      numbered.narrow_eq atPlace (Nat.zero_add _).le (Nat.zero_le place) (by omega)
    simp [search?, isPlace, atPlace]

/-- Halving finds what looking at one module after the other finds. -/
theorem search?_eq_indexOf?
    (numbered : graph.Numbered)
    (id : ModuleId) :
    graph.search? id = graph.indexOf? id := by
  apply Option.ext
  intro place
  exact numbered.search?_eq_some_iff.trans numbered.indexOf?_eq_some_iff.symm

/-- The module with a number is the one at the place that halving finds. -/
theorem module?_eq_search?
    (numbered : graph.Numbered)
    (id : ModuleId) :
    graph.module? id = (graph.search? id).bind (graph.modules[·]?) := by
  apply Option.ext
  intro module
  rw [Option.bind_eq_some_iff]
  constructor
  · intro found
    obtain ⟨member, isNamed⟩ := module?_some found
    obtain ⟨place, atPlace⟩ := List.mem_iff_getElem?.mp member
    exact ⟨place, numbered.search?_eq_some_iff.mpr ⟨module, atPlace, isNamed⟩, atPlace⟩
  · rintro ⟨place, isFound, atPlace⟩
    obtain ⟨other, stands, rfl⟩ := numbered.search?_eq_some_iff.mp isFound
    rw [atPlace, Option.some.injEq] at stands
    rw [← stands]
    exact numbered.module?_of_mem (List.mem_of_getElem? atPlace)

end Numbered

end SynthGraph.Graph
