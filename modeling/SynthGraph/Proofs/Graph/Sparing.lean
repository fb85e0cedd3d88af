import SynthGraph.Proofs.Graph.Locality
import SynthGraph.Proofs.Graph.Meaning
import SynthGraph.Proofs.Graph.Numbering

namespace SynthGraph.Graph

/-!
# Operations that spare the part behind some sinks

Modules may be added, and modules that stand elsewhere may be removed, turned and
patched to each other or from what is behind the sinks: from there the graph looks
the same afterwards (`agreesBehind_apply`).
-/

variable {U : Type} {graph : Graph U} {sinks : List ModuleId}

/-- Taking out a patch that leads elsewhere leaves the patches that lead here. -/
theorem filter_eraseP
    {patches : List Patch}
    {removes selects : Patch → Bool}
    (elsewhere : ∀ patch ∈ patches, removes patch → ¬ selects patch) :
    (patches.eraseP removes).filter selects = patches.filter selects := by
  by_cases found : ∃ patch ∈ patches, removes patch
  · obtain ⟨patch, member, removed⟩ := found
    obtain ⟨gone, before, after, _, isRemoved, splits, erased⟩ :=
      List.exists_of_eraseP member removed
    have notSelected := elsewhere gone (by simp [splits]) isRemoved
    rw [erased, splits, List.filter_append, List.filter_append, List.filter_cons_of_neg notSelected]
  · rw [List.eraseP_of_forall_not fun patch member removed => found ⟨patch, member, removed⟩]

variable [UnitLike U]

/-- Whether an operation leaves alone what stands behind the sinks. -/
def Spares (graph : Graph U) (sinks : List ModuleId) : Operation U → Prop
  | .add _ _ => True
  | .remove id => ¬ graph.Behind sinks id
  | .setDial id _ _ => ¬ graph.Behind sinks id
  | .connect first second =>
      ∀ patch,
        graph.candidate first second = .ok patch → ¬ graph.Behind sinks patch.target.module

instance (graph : Graph U) (sinks : List ModuleId) : DecidablePred (graph.Spares sinks)
  | .add _ _ => inferInstanceAs (Decidable True)
  | .remove id => inferInstanceAs (Decidable (¬ graph.Behind sinks id))
  | .setDial id _ _ => inferInstanceAs (Decidable (¬ graph.Behind sinks id))
  | .connect first second =>
      match isCandidate : graph.candidate first second with
      | .ok patch =>
          decidable_of_iff (¬ graph.Behind sinks patch.target.module) (by simp [Spares, isCandidate])
      | .error _ => isTrue (by simp [Spares, isCandidate])

section Operations

variable (live : ∀ sink ∈ sinks, (graph.module? sink).isSome)

include live

/-- What keeps the units and the patches behind the sinks keeps what they see. -/
theorem agreesBehind_of_kept
    {other : Graph U}
    (units :
      ∀ id unit, graph.Behind sinks id → graph.unit? id = some unit → other.unit? id = some unit)
    (patches :
      (other.patches.filter fun patch => graph.Behind sinks patch.target.module) =
        graph.patches.filter fun patch => graph.Behind sinks patch.target.module)
    (wellPatched : graph.WellPatched) :
    graph.AgreesBehind other sinks := by
  have sameUnits (id : ModuleId) (behind : graph.Behind sinks id) :
      other.unit? id = graph.unit? id := by
    obtain ⟨unit, found⟩ := behind.unit?_isSome wellPatched
    rw [found]
    exact units id unit behind found
  apply AgreesBehind.of_patches (same_live_of_units live sameUnits) sameUnits
  rw [patches]
  rfl

variable (wellPatched : graph.WellPatched)

include wellPatched

theorem agreesBehind_add
    (unit : U)
    (position : Position) :
    graph.AgreesBehind (graph.add unit position) sinks := by
  apply agreesBehind_of_kept live _ _ wellPatched
  · intro id present _ found
    exact unit?_add_of_some found unit position
  · rfl

theorem agreesBehind_remove
    {id : ModuleId}
    (elsewhere : ¬ graph.Behind sinks id)
    {unit : U}
    {rest : Graph U}
    (removed : graph.remove? id = some (unit, rest)) :
    graph.AgreesBehind rest sinks := by
  apply agreesBehind_of_kept live _ _ wellPatched
  · intro other present behind found
    have different : other ≠ id := by
      rintro rfl
      exact elsewhere behind
    rw [unit?_remove?_of_ne removed different, found]
  · rw [(remove?_some removed).2.2.1, List.filter_filter]
    apply List.filter_congr
    intro patch member
    by_cases behind : graph.Behind sinks patch.target.module
    · have notTarget : patch.target.module ≠ id := fun isTarget => elsewhere (isTarget ▸ behind)
      have notSource : patch.source.module ≠ id := fun isSource =>
        elsewhere (behind.of_feeds ⟨patch, member, isSource, rfl⟩)
      simp [behind, Patch.involves, notTarget, notSource]
    · simp [behind]

theorem agreesBehind_replaceUnit
    {id : ModuleId}
    (elsewhere : ¬ graph.Behind sinks id)
    (unit : U) :
    graph.AgreesBehind (graph.replaceUnit id unit) sinks := by
  apply agreesBehind_of_kept live _ _ wellPatched
  · intro other present behind found
    have different : other ≠ id := by
      rintro rfl
      exact elsewhere behind
    rw [unit?_replaceUnit_of_ne graph different, found]
  · rfl

theorem agreesBehind_toggle
    {patch : Patch}
    (fits : graph.Fits patch)
    (elsewhere : ¬ graph.Behind sinks patch.target.module) :
    graph.AgreesBehind (graph.toggle patch).2 sinks := by
  apply agreesBehind_of_kept live _ _ wellPatched
  · intro id present _ found
    simpa only [unit?, module?, toggle_modules] using found
  · unfold toggle
    split
    · apply filter_eraseP
      intro other member joins
      simp only [Patch.joinsSame, Bool.or_eq_true, Bool.and_eq_true, decide_eq_true_eq] at joins
      rcases joins with ⟨_, sameTarget⟩ | ⟨source, _⟩
      · simpa [sameTarget] using elsewhere
      · -- A patch never leads from the input at which this one ends.
        exact absurd source (wellPatched.source_ne_input fits.2 member)
    · simp [elsewhere]

/-- An operation that spares what stands behind the sinks keeps what they see. -/
theorem agreesBehind_apply
    {operation : Operation U}
    (spares : graph.Spares sinks operation) :
    graph.AgreesBehind (graph.apply operation) sinks := by
  have unchanged : graph.AgreesBehind graph sinks :=
    ⟨fun _ _ => rfl, fun _ _ => rfl, rfl⟩
  cases operation with
  | add unit position =>
      exact agreesBehind_add live wellPatched unit position
  | remove id =>
      simp only [Graph.apply]
      split
      · rename_i removed
        exact agreesBehind_remove live wellPatched spares removed
      · exact unchanged
  | setDial id dial value =>
      simp only [Graph.apply]
      cases isTurned : graph.setDial? id dial value with
      | none =>
          exact unchanged
      | some turned =>
          obtain ⟨_, turnedUnit, _, _, rfl⟩ := setDial?_some isTurned
          exact agreesBehind_replaceUnit live wellPatched spares turnedUnit
  | connect first second =>
      simp only [Graph.apply]
      split
      · rename_i isPatched
        obtain ⟨patch, isCandidate, toggled⟩ := connect_eq_ok_iff.mp isPatched
        have agrees :=
          agreesBehind_toggle live wellPatched (candidate_eq_ok_iff.mp isCandidate).1
            (spares patch isCandidate)
        rwa [toggled] at agrees
      · exact unchanged

end Operations

/-- Whether no operation of a run touches what stands behind the sinks of its time. -/
def SparesThroughout
    (sinksOf : Graph U → List ModuleId)
    (graph : Graph U) :
    List (Operation U) → Prop
  | [] => True
  | operation :: rest =>
      graph.Spares (sinksOf graph) operation ∧
        (graph.apply operation).SparesThroughout sinksOf rest

instance decidableSparesThroughout
    (sinksOf : Graph U → List ModuleId)
    (graph : Graph U) :
    DecidablePred (graph.SparesThroughout sinksOf)
  | [] => inferInstanceAs (Decidable True)
  | operation :: rest =>
      have := decidableSparesThroughout sinksOf (graph.apply operation) rest
      inferInstanceAs (Decidable (_ ∧ _))

section Kinds

variable {id : ModuleId} {kind : String}

/-- The first module of a kind is there. -/
theorem live_of_findKind?
    (isFirst : graph.findKind? kind = some id) :
    (graph.module? id).isSome := by
  obtain ⟨module, member, rfl⟩ := List.mem_map.mp (List.mem_of_head? isFirst)
  rw [module?, List.find?_isSome]
  exact ⟨module, List.mem_of_mem_filter member, by simp⟩

/-- A module that is added comes after those of its kind. -/
theorem findKind?_add
    (graph : Graph U)
    (unit : U)
    (position : Position)
    (kind : String) :
    (graph.add unit position).findKind? kind =
      (graph.findKind? kind).or (if UnitLike.kind unit = kind then some graph.nextId else none) := by
  simp only [findKind?, modulesOfKind, add, List.filter_append, List.map_append, List.head?_append]
  congr 1
  by_cases isKind : UnitLike.kind unit = kind <;> simp [isKind]

/-- The first module of a kind stays so as long as it is not removed. -/
theorem findKind?_remove?
    {unit : U}
    {rest : Graph U}
    (removed : graph.remove? id = some (unit, rest))
    (notFirst : graph.findKind? kind ≠ some id) :
    rest.findKind? kind = graph.findKind? kind := by
  have left : rest.modulesOfKind kind = (graph.modulesOfKind kind).filter (· ≠ id) := by
    rw [modulesOfKind, (remove?_some removed).2.1, modulesOfKind, List.filter_map,
      List.filter_filter, List.filter_filter]
    congr 2
    funext module
    simp [Bool.and_comm]
  rw [findKind?, left]
  rw [findKind?] at notFirst ⊢
  cases ids : graph.modulesOfKind kind with
  | nil =>
      rfl
  | cons first others =>
      rw [ids, List.head?_cons, ne_eq, Option.some.injEq] at notFirst
      simp [notFirst]

/-- Another unit of the same kind may take the place of one. -/
theorem findKind?_replaceUnit
    (numbered : graph.Numbered)
    {unit replacement : U}
    (found : graph.unit? id = some unit)
    (sameKind : UnitLike.kind replacement = UnitLike.kind unit)
    (kind : String) :
    (graph.replaceUnit id replacement).findKind? kind = graph.findKind? kind := by
  obtain ⟨old, isOld, rfl⟩ := Option.map_eq_some_iff.mp found
  have sameIds :
      (graph.replaceUnit id replacement).modulesOfKind kind = graph.modulesOfKind kind := by
    simp only [modulesOfKind, replaceUnit, updateModule, List.filter_map, List.map_map,
      Function.comp_def]
    have selected (module : Module U) (member : module ∈ graph.modules) :
        decide (UnitLike.kind (if module.id = id then
            { module with unit := replacement } else module).unit = kind) =
          decide (UnitLike.kind module.unit = kind) := by
      split
      · rename_i isReplaced
        have isThere := numbered.module?_of_mem member
        rw [isReplaced, isOld, Option.some.injEq] at isThere
        rw [sameKind, isThere]
      · rfl
    rw [List.filter_congr selected]
    apply List.map_congr_left
    intro module _
    split <;> rfl
  rw [findKind?, sameIds, findKind?]

end Kinds

end SynthGraph.Graph
