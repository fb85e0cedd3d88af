import SynthGraph.Proofs.Graph.Searching
import SynthGraph.Proofs.Unit.Catalog

namespace SynthGraph

/-!
# The identity of modules

A number that a run hands out stands for one module for ever.  After any run the
module with a number is the one that was added under it, with the dials that were
turned on it since, as long as it was not removed (`Graph.module?_run_iff`).
-/

/-- Dials of the same names and ranges, at other values. -/
def Dials.SameShape (dials others : Dials) : Prop :=
  List.Forall₂ (fun dial other => other = { dial with value := other.value }) dials others

namespace Dials.SameShape

theorem refl (dials : Dials) : dials.SameShape dials :=
  List.forall₂_same.mpr fun _ _ => rfl

theorem trans
    {first second third : Dials}
    (firstSame : first.SameShape second)
    (secondSame : second.SameShape third) :
    first.SameShape third := by
  unfold SameShape at firstSame secondSame ⊢
  induction firstSame generalizing third with
  | nil =>
      exact secondSame
  | @cons dial other rest otherRest same _ inductionHypothesis =>
      obtain ⟨another, anotherRest, sameOther, restSame, rfl⟩ :=
        List.forall₂_cons_left_iff.mp secondSame
      refine .cons ?_ (inductionHypothesis restSame)
      rw [sameOther, same]

theorem set
    (dials : Dials)
    (id : String)
    (value : Double) :
    dials.SameShape (Dials.set dials id value) := by
  unfold Dials.set
  cases isSet : Dials.set? dials id value with
  | none =>
      exact refl dials
  | some result =>
      rw [Option.getD_some]
      unfold SameShape
      induction dials generalizing result with
      | nil =>
          cases isSet
      | cons dial rest inductionHypothesis =>
          rw [Dials.set?] at isSet
          split at isSet
          · cases isSet
            exact .cons rfl (refl rest)
          · obtain ⟨restResult, restSet, rfl⟩ := Option.map_eq_some_iff.mp isSet
            exact .cons rfl (inductionHypothesis restResult restSet)

end Dials.SameShape

namespace Operation

variable {U : Type}

/-- Whether an operation names a module. -/
def Names (operation : Operation U) (id : ModuleId) : Prop :=
  match operation with
  | .add _ _ => False
  | .remove other => other = id
  | .setDial other _ _ => other = id
  | .connect first second => first.module = id ∨ second.module = id

/-- What an operation makes of the unit of a module. -/
def turn [UnitLike U] (id : ModuleId) (unit : U) : Operation U → U
  | .setDial other dial value => if other = id then UnitLike.setDial unit dial value else unit
  | _ => unit

/-- Operations change nothing of a unit but the values of its dials. -/
theorem foldl_turn
    [UnitLike U]
    [CatalogUnit U]
    (id : ModuleId)
    (unit : U)
    (operations : List (Operation U)) :
    ∃ dials,
      operations.foldl (turn id) unit = CatalogUnit.withDials dials unit ∧
        (UnitLike.dials unit).SameShape dials := by
  induction operations generalizing unit with
  | nil =>
      exact ⟨_, (CatalogUnit.withDials_dials unit).symm, .refl _⟩
  | cons operation rest inductionHypothesis =>
      cases operation with
      | add | remove | connect =>
          exact inductionHypothesis unit
      | setDial other dial value =>
          by_cases isNamed : other = id
          · have turned := Dials.SameShape.set (UnitLike.dials unit) dial value
            obtain ⟨dials, folded, sameShape⟩ := inductionHypothesis (UnitLike.setDial unit dial value)
            rw [CatalogUnit.setDial_eq, CatalogUnit.dials_withDials _ _ turned.length_eq.symm]
              at sameShape
            refine ⟨dials, ?_, turned.trans sameShape⟩
            rw [List.foldl_cons, turn, if_pos isNamed, folded, CatalogUnit.setDial_eq,
              CatalogUnit.withDials_withDials]
          · have unturned : (Operation.setDial other dial value).turn id unit = unit := by
              rw [turn, if_neg isNamed]
            rw [List.foldl_cons, unturned]
            exact inductionHypothesis unit

end Operation

namespace Graph

section Applying

variable {U : Type} {graph : Graph U} {id : ModuleId} {module : Module U}

theorem Numbered.module?_add
    (numbered : graph.Numbered)
    (unit : U)
    (position : Position) :
    (graph.add unit position).module? id = some module ↔
      (graph.nextId = id ∧ module = ⟨id, position, unit⟩) ∨ graph.module? id = some module := by
  simp only [module?, Graph.add, List.find?_append]
  cases found : graph.modules.find? (·.id = id) with
  | some present =>
      have notNew : graph.nextId ≠ id := by
        obtain ⟨member, rfl⟩ := module?_some found
        exact (numbered.below present member).ne'
      simp [notNew]
  | none =>
      by_cases isNew : graph.nextId = id
      · simp [isNew, eq_comm]
      · simp [isNew]

theorem module?_replaceUnit
    (graph : Graph U)
    (replaced : ModuleId)
    (unit : U)
    (id : ModuleId) :
    (graph.replaceUnit replaced unit).module? id =
      (graph.module? id).map fun module =>
        if replaced = id then { module with unit := unit } else module := by
  rw [replaceUnit, graph.module?_updateModule _ (fun module => { module with unit := unit })
    (fun _ => rfl)]
  cases found : graph.module? id with
  | none =>
      rfl
  | some module =>
      have isNamed := (module?_some found).2
      simp [isNamed, eq_comm]

/-- Removing a module takes it and the patches at it away, and nothing else. -/
theorem remove?_of_module?
    (numbered : graph.Numbered)
    (found : graph.module? id = some module) :
    ∃ before after rest,
      graph.modules = before ++ module :: after ∧
        graph.remove? id = some (module.unit, rest) ∧
        rest.modules = before ++ after ∧
        rest.patches =
          graph.patches.filter
            (fun patch => patch.source.module ≠ id ∧ patch.target.module ≠ id) ∧
        rest.nextId = graph.nextId := by
  obtain ⟨isNamed, before, after, split, others⟩ := List.find?_eq_some_iff_append.mp found
  obtain rfl : module.id = id := of_decide_eq_true isNamed
  have isUnit : graph.unit? module.id = some module.unit := by
    rw [unit?, found]
    rfl
  have removed :
      graph.remove? module.id =
        some (module.unit,
          { graph with
            modules := graph.modules.filter (·.id ≠ module.id)
            patches := graph.patches.filter (!·.involves module.id) }) := by
    rw [remove?, isUnit]
  refine ⟨before, after, _, split, removed, ?_, ?_, rfl⟩
  · have increasing := numbered.increasing
    rw [split, List.pairwise_append, List.pairwise_cons] at increasing
    have beforeKept : before.filter (·.id ≠ module.id) = before :=
      List.filter_eq_self.mpr fun other member => by simpa using others other member
    have afterKept : after.filter (·.id ≠ module.id) = after :=
      List.filter_eq_self.mpr fun other member => by
        simpa using (increasing.2.1.1 other member).ne'
    change graph.modules.filter (·.id ≠ module.id) = before ++ after
    rw [split, List.filter_append, beforeKept, List.filter_cons_of_neg (by simp), afterKept]
  · apply List.filter_congr
    intro patch _
    simp [Patch.involves]

variable [UnitLike U]

theorem numbered_run
    (operations : List (Operation U)) :
    (empty.run operations).Numbered :=
  run_induction (fun _ operation numbered => numbered.apply operation) numbered_empty operations

theorem run_append_singleton
    (graph : Graph U)
    (operations : List (Operation U))
    (operation : Operation U) :
    graph.run (operations ++ [operation]) = (graph.run operations).apply operation := by
  rw [run, List.foldl_append]
  rfl

theorem module?_remove
    (graph : Graph U)
    (removed id : ModuleId) :
    (graph.apply (.remove removed)).module? id =
      if removed = id then none else graph.module? id := by
  cases left : graph.remove? removed with
  | none =>
      have unchanged : graph.apply (.remove removed) = graph := by
        simp only [Graph.apply, left]
      rw [unchanged]
      split
      · rename_i same
        subst same
        cases found : graph.module? removed with
        | none =>
            rfl
        | some module =>
            simp [remove?, unit?, found] at left
      · rfl
  | some result =>
      obtain ⟨unit, rest⟩ := result
      have isRest : graph.apply (.remove removed) = rest := by
        simp only [Graph.apply, left]
      simp only [isRest, module?, (remove?_some left).2.1, List.find?_filter]
      split
      · rename_i same
        rw [List.find?_eq_none]
        intro module _
        simp [same]
      · rename_i different
        congr 1
        funext module
        by_cases isNamed : module.id = id <;> simp [isNamed, Ne.symm different]

theorem module?_setDial
    (graph : Graph U)
    (turned : ModuleId)
    (dial : String)
    (value : Double)
    (id : ModuleId) :
    (graph.apply (.setDial turned dial value)).module? id =
      (graph.module? id).map fun module =>
        { module with unit := (Operation.setDial turned dial value).turn id module.unit } := by
  simp only [Graph.apply, Operation.turn]
  cases isTurned : graph.setDial? turned dial value with
  | some turnedGraph =>
      obtain ⟨unit, turnedUnit, found, unitTurned, rfl⟩ := setDial?_some isTurned
      rw [Option.getD_some, module?_replaceUnit]
      by_cases same : turned = id
      · subst same
        obtain ⟨module, isModule, rfl⟩ := Option.map_eq_some_iff.mp found
        simp [isModule, UnitLike.setDial, unitTurned]
      · simp [same]
  | none =>
      rw [Option.getD_none]
      by_cases same : turned = id
      · subst same
        cases found : graph.module? turned with
        | none =>
            rfl
        | some module =>
            -- The module is there, so its unit has no such dial.
            cases unitTurned : UnitLike.setDial? module.unit dial value with
            | none =>
                simp [UnitLike.setDial, unitTurned]
            | some turnedUnit =>
                simp [setDial?, unit?, found, unitTurned] at isTurned
      · simp [same]

theorem module?_connect
    (graph : Graph U)
    (first second : Endpoint)
    (id : ModuleId) :
    (graph.apply (.connect first second)).module? id = graph.module? id := by
  simp only [Graph.apply]
  split
  · rename_i isPatched
    obtain ⟨patch, _, toggled⟩ := connect_eq_ok_iff.mp isPatched
    have sameModules := toggle_modules graph patch
    rw [toggled] at sameModules
    rw [module?, module?, sameModules]
  · rfl

/--
After an operation a number stands for what was added under it just now, or for
what it stood for before, turned, unless that was removed.
-/
theorem Numbered.module?_apply
    (numbered : graph.Numbered)
    (operation : Operation U) :
    (graph.apply operation).module? id = some module ↔
      (∃ unit position,
        operation = .add unit position ∧ graph.nextId = id ∧ module = ⟨id, position, unit⟩) ∨
      operation ≠ .remove id ∧
        ∃ earlier,
          graph.module? id = some earlier ∧
            module = { earlier with unit := operation.turn id earlier.unit } := by
  cases operation with
  | add unit position =>
      simp [Graph.apply, numbered.module?_add, Operation.turn]
  | remove removed =>
      by_cases same : removed = id
      · simp [module?_remove, same]
      · simp [module?_remove, same, Operation.turn]
  | setDial turned dial value =>
      simp [module?_setDial, eq_comm]
  | connect first second =>
      simp [module?_connect, Operation.turn, eq_comm]

end Applying

section Running

variable {U : Type} [UnitLike U]

/-- The numbers that a run gives to the modules it adds. -/
def handedOut (graph : Graph U) : List (Operation U) → List ModuleId
  | [] => []
  | operation :: rest =>
      let later := (graph.apply operation).handedOut rest
      match operation with
      | .add _ _ => graph.nextId :: later
      | _ => later

/--
What a number stands for after a run: the module that was added under it, turned
as the run went on without removing it.
-/
def Stands
    (operations : List (Operation U))
    (id : ModuleId)
    (module : Module U) :
    Prop :=
  ∃ before unit position after,
    operations = before ++ .add unit position :: after ∧
      (empty.run before).nextId = id ∧
      .remove id ∉ after ∧
      module = ⟨id, position, after.foldl (Operation.turn id) unit⟩

/-- What a number stands for changes with one more operation as `module?_apply` says. -/
theorem stands_append_singleton
    {operations : List (Operation U)}
    {operation : Operation U}
    {id : ModuleId}
    {module : Module U} :
    Stands (operations ++ [operation]) id module ↔
      (∃ unit position,
        operation = .add unit position ∧
          (empty.run operations).nextId = id ∧
          module = ⟨id, position, unit⟩) ∨
      operation ≠ .remove id ∧
        ∃ earlier,
          Stands operations id earlier ∧
            module = { earlier with unit := operation.turn id earlier.unit } := by
  constructor
  · rintro ⟨before, unit, position, after, whole, isNumber, notRemoved, rfl⟩
    rcases List.eq_nil_or_concat after with rfl | ⟨earlier, last, rfl⟩
    · obtain ⟨rfl, isLast⟩ := List.append_inj' whole rfl
      exact Or.inl ⟨unit, position, List.singleton_inj.mp isLast, isNumber, rfl⟩
    · rw [List.concat_eq_append, ← List.cons_append, ← List.append_assoc] at whole
      obtain ⟨rfl, isLast⟩ := List.append_inj' whole rfl
      obtain rfl := List.singleton_inj.mp isLast
      rw [List.concat_eq_append, List.mem_append, not_or, List.mem_singleton] at notRemoved
      refine Or.inr ⟨Ne.symm notRemoved.2, _,
        ⟨before, unit, position, earlier, rfl, isNumber, notRemoved.1, rfl⟩, ?_⟩
      rw [List.concat_eq_append, List.foldl_append]
      rfl
  · rintro (⟨unit, position, rfl, isNumber, rfl⟩ |
      ⟨notRemoved, _, ⟨before, unit, position, after, rfl, isNumber, kept, rfl⟩, rfl⟩)
    · exact ⟨operations, unit, position, [], rfl, isNumber, by simp, rfl⟩
    · refine ⟨before, unit, position, after ++ [operation], by simp, isNumber, ?_, ?_⟩
      · simp [kept, Ne.symm notRemoved]
      · rw [List.foldl_append]
        rfl

/-- The module with a number is the one that the number stands for. -/
theorem module?_run_iff
    (operations : List (Operation U))
    (id : ModuleId)
    (module : Module U) :
    (empty.run operations).module? id = some module ↔ Stands operations id module := by
  induction operations using List.reverseRecOn generalizing module with
  | nil =>
      simp [run, module?, empty, Stands]
  | append_singleton operations operation inductionHypothesis =>
      rw [run_append_singleton, (numbered_run operations).module?_apply, stands_append_singleton]
      simp only [inductionHypothesis]

section Numbers

variable {graph : Graph U} {operations : List (Operation U)} {id : ModuleId}

/-- Only adding a module moves the next number on. -/
theorem nextId_apply
    (graph : Graph U)
    (operation : Operation U) :
    (graph.apply operation).nextId =
      match operation with
      | .add _ _ => graph.nextId + 1
      | _ => graph.nextId := by
  cases operation with
  | add unit position =>
      rfl
  | remove removed =>
      simp only [Graph.apply]
      split
      · rename_i left
        exact (remove?_some left).2.2.2
      · rfl
  | setDial turned dial value =>
      simp only [Graph.apply]
      cases isTurned : graph.setDial? turned dial value with
      | none =>
          rfl
      | some turnedGraph =>
          obtain ⟨_, _, _, _, rfl⟩ := setDial?_some isTurned
          rfl
  | connect first second =>
      simp only [Graph.apply]
      split
      · rename_i isPatched
        obtain ⟨patch, _, toggled⟩ := connect_eq_ok_iff.mp isPatched
        have sameNext := toggle_nextId graph patch
        rw [toggled] at sameNext
        exact sameNext
      · rfl

theorem mem_handedOut_cons
    {operation : Operation U} :
    id ∈ graph.handedOut (operation :: operations) ↔
      (∃ unit position, operation = .add unit position ∧ graph.nextId = id) ∨
        id ∈ (graph.apply operation).handedOut operations := by
  cases operation with
  | add unit position =>
      simp [handedOut, eq_comm]
  | remove | setDial | connect =>
      simp [handedOut]

/-- A number is handed out exactly where a module is added while it is the next. -/
theorem mem_handedOut :
    id ∈ graph.handedOut operations ↔
      ∃ before unit position after,
        operations = before ++ .add unit position :: after ∧ (graph.run before).nextId = id := by
  induction operations generalizing graph with
  | nil =>
      simp [handedOut]
  | cons operation rest inductionHypothesis =>
      rw [mem_handedOut_cons, inductionHypothesis]
      constructor
      · rintro (⟨unit, position, rfl, isNext⟩ | ⟨before, unit, position, after, rfl, isNext⟩)
        · exact ⟨[], unit, position, rest, rfl, isNext⟩
        · exact ⟨operation :: before, unit, position, after, rfl, isNext⟩
      · rintro ⟨before, unit, position, after, whole, isNext⟩
        cases before with
        | nil =>
            obtain ⟨rfl, rfl⟩ := List.cons.inj whole
            exact Or.inl ⟨unit, position, rfl, isNext⟩
        | cons first others =>
            obtain ⟨rfl, rfl⟩ := List.cons.inj whole
            exact Or.inr ⟨others, unit, position, after, rfl, isNext⟩

/-- Numbers are handed out in increasing order, from the next number on. -/
theorem pairwise_handedOut
    (graph : Graph U)
    (operations : List (Operation U)) :
    (graph.handedOut operations).Pairwise (· < ·) ∧
      ∀ id ∈ graph.handedOut operations, graph.nextId ≤ id := by
  induction operations generalizing graph with
  | nil =>
      simp [handedOut]
  | cons operation rest inductionHypothesis =>
      obtain ⟨increasing, fromNext⟩ := inductionHypothesis (graph.apply operation)
      rw [nextId_apply] at fromNext
      cases operation with
      | add unit position =>
          refine ⟨List.pairwise_cons.mpr ⟨fun id member => fromNext id member, increasing⟩, ?_⟩
          rw [handedOut, List.forall_mem_cons]
          exact ⟨Nat.le_refl _, fun id member => Nat.le_of_succ_le (fromNext id member)⟩
      | remove | setDial | connect =>
          exact ⟨increasing, fromNext⟩

end Numbers

/-- An operation that names a module that is not there changes nothing. -/
theorem apply_of_absent
    {graph : Graph U}
    {operation : Operation U}
    {id : ModuleId}
    (names : operation.Names id)
    (absent : graph.module? id = none) :
    graph.apply operation = graph := by
  have noUnit : graph.unit? id = none := by
    rw [unit?, absent]
    rfl
  cases operation with
  | add unit position =>
      exact names.elim
  | remove removed =>
      obtain rfl := names
      simp [Graph.apply, remove?, noUnit]
  | setDial turned dial value =>
      obtain rfl := names
      simp [Graph.apply, setDial?, noUnit]
  | connect first second =>
      simp only [Graph.apply]
      split
      · rename_i isPatched
        obtain ⟨patch, isCandidate, _⟩ := connect_eq_ok_iff.mp isPatched
        obtain ⟨⟨⟨source, isSource, _⟩, ⟨target, isTarget, _⟩⟩, ends⟩ :=
          candidate_eq_ok_iff.mp isCandidate
        -- Both sockets are on modules that are there, so neither is the absent one.
        rcases ends with ⟨rfl, rfl⟩ | ⟨rfl, rfl⟩ <;>
          rcases names with rfl | rfl <;>
          simp_all
      · rfl

/-- What the numbers of modules stand for after a run from the empty graph. -/
structure StableIdentity
    [CatalogUnit U]
    (operations : List (Operation U)) :
    Prop where
  /-- Numbers are handed out in increasing order, never twice. -/
  increasing : (empty.handedOut operations).Pairwise (· < ·)
  /-- Each addition hands out the next number. -/
  handedOut :
    ∀ id,
      id ∈ empty.handedOut operations ↔
        ∃ before unit position after,
          operations = before ++ .add unit position :: after ∧ (empty.run before).nextId = id
  /-- Modules stand in the order of their numbers. -/
  sorted : (empty.run operations).modules.Pairwise fun first second => first.id < second.id
  /-- A number is found if it was handed out and not removed since, with what it stands for. -/
  found :
    ∀ id module,
      (empty.run operations).module? id = some module ↔ Stands operations id module
  /-- What it stands for is the added unit in its place, with other values on its dials at most. -/
  kept :
    ∀ id module,
      Stands operations id module →
        ∃ before unit position after dials,
          operations = before ++ .add unit position :: after ∧
            (empty.run before).nextId = id ∧
            (UnitLike.dials unit).SameShape dials ∧
            module = ⟨id, position, CatalogUnit.withDials dials unit⟩
  /-- Searching the modules by halving finds their places. -/
  searched : ∀ id, (empty.run operations).search? id = (empty.run operations).indexOf? id
  place :
    ∀ id place,
      (empty.run operations).indexOf? id = some place ↔
        ∃ module,
          Stands operations id module ∧ (empty.run operations).modules[place]? = some module
  module_searched :
    ∀ id,
      (empty.run operations).module? id =
        ((empty.run operations).search? id).bind ((empty.run operations).modules[·]?)
  /-- An operation that names a module that is not there changes nothing. -/
  refused :
    ∀ operation id,
      operation.Names id →
        (empty.run operations).module? id = none →
          (empty.run operations).apply operation = empty.run operations
  /-- Removing a module takes it and the patches at it away, and nothing else. -/
  removed :
    ∀ id module,
      (empty.run operations).module? id = some module →
        ∃ before after rest,
          (empty.run operations).modules = before ++ module :: after ∧
            (empty.run operations).remove? id = some (module.unit, rest) ∧
            rest.modules = before ++ after ∧
            rest.patches =
              (empty.run operations).patches.filter
                (fun patch => patch.source.module ≠ id ∧ patch.target.module ≠ id) ∧
            rest.nextId = (empty.run operations).nextId

theorem stableIdentity_run
    [CatalogUnit U]
    (operations : List (Operation U)) :
    StableIdentity operations where
  increasing := (pairwise_handedOut empty operations).1
  handedOut _ := mem_handedOut
  sorted := (numbered_run operations).increasing
  found := module?_run_iff operations
  kept id module := by
    rintro ⟨before, unit, position, after, whole, isNumber, _, rfl⟩
    obtain ⟨dials, turned, sameShape⟩ := Operation.foldl_turn id unit after
    exact ⟨before, unit, position, after, dials, whole, isNumber, sameShape, by rw [turned]⟩
  searched := (numbered_run operations).search?_eq_indexOf?
  place id place := by
    rw [(numbered_run operations).indexOf?_eq_some_iff]
    apply exists_congr
    intro module
    rw [← module?_run_iff, and_comm]
    apply and_congr_left
    intro atPlace
    constructor
    · rintro rfl
      exact (numbered_run operations).module?_of_mem (List.mem_of_getElem? atPlace)
    · exact fun found => (module?_some found).2
  module_searched := (numbered_run operations).module?_eq_search?
  refused _ _ names absent := apply_of_absent names absent
  removed _ _ found := remove?_of_module? (numbered_run operations) found

/-- Whatever operations build a graph from either catalog, its modules keep their identity. -/
theorem catalogs_stableIdentity :
    (∀ operations : List (Operation InstrumentUnit), StableIdentity operations) ∧
      ∀ operations : List (Operation SequenceUnit), StableIdentity operations :=
  ⟨stableIdentity_run, stableIdentity_run⟩

end Running

end Graph

end SynthGraph
