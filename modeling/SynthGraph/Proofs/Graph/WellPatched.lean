import SynthGraph.Proofs.Graph.Connecting

namespace SynthGraph.Graph

/-!
# Well patched graphs

In every graph that operations can build, each patch leads from an output to an
input of modules that are there, both ends carry its signal, and no two patches
join the same sockets.

Adding a patch that fits, removing a patch and removing a module with all its
patches keep a graph well patched (`WellPatched.apply`), so every run from the
empty graph does.
-/

variable {U : Type} [UnitLike U]

/-- Every patch fits, and no two patches join the same sockets. -/
structure WellPatched (graph : Graph U) : Prop where
  source_output :
    ∀ patch ∈ graph.patches, graph.HasSocket patch.source .output patch.signal
  target_input :
    ∀ patch ∈ graph.patches, graph.HasSocket patch.target .input patch.signal
  not_joinsSame :
    graph.patches.Pairwise fun first second => ¬ first.joinsSame second

theorem WellPatched.fits
    {graph : Graph U}
    (wellPatched : graph.WellPatched)
    {patch : Patch}
    (member : patch ∈ graph.patches) :
    graph.Fits patch :=
  ⟨wellPatched.source_output patch member, wellPatched.target_input patch member⟩

/-- What is patched into an input sends what the input takes. -/
theorem WellPatched.source_of_input
    {graph : Graph U}
    (wellPatched : graph.WellPatched)
    {endpoint : Endpoint}
    {signal : Signal}
    (isInput : graph.HasSocket endpoint .input signal)
    {patch : Patch}
    (member : patch ∈ graph.patches)
    (isTarget : patch.target = endpoint) :
    graph.HasSocket patch.source .output signal := by
  have target := wellPatched.target_input patch member
  rw [isTarget] at target
  rw [← (target.unique isInput).2]
  exact wellPatched.source_output patch member

theorem wellPatched_iff
    (graph : Graph U) :
    graph.WellPatched ↔
      (∀ patch ∈ graph.patches, graph.Fits patch) ∧
        graph.patches.Pairwise fun first second => ¬ first.joinsSame second := by
  constructor
  · intro wellPatched
    exact ⟨fun _ member => wellPatched.fits member, wellPatched.not_joinsSame⟩
  · rintro ⟨fits, distinct⟩
    exact ⟨fun patch member => (fits patch member).1,
      fun patch member => (fits patch member).2, distinct⟩

theorem wellPatched_empty : (empty : Graph U).WellPatched :=
  (wellPatched_iff _).mpr ⟨by simp [empty], by simp [empty]⟩

/-- A patch fits as long as the modules at its ends keep their sockets. -/
theorem Fits.of_unit?
    {graph other : Graph U}
    {patch : Patch}
    (fits : graph.Fits patch)
    (keeps :
      ∀ id unit, patch.involves id → graph.unit? id = some unit →
        ∃ kept, other.unit? id = some kept ∧
          UnitLike.sockets kept = UnitLike.sockets unit) :
    other.Fits patch := by
  refine ⟨fits.1.of_unit? ?_, fits.2.of_unit? ?_⟩
  · intro unit found
    exact keeps _ unit (by simp [Patch.involves]) found
  · intro unit found
    exact keeps _ unit (by simp [Patch.involves]) found

namespace WellPatched

variable {graph : Graph U}

/-- No patch is there twice. -/
theorem nodup_patches
    (wellPatched : graph.WellPatched) :
    graph.patches.Nodup := by
  apply wellPatched.not_joinsSame.imp
  rintro first second notSame rfl
  simp [Patch.joinsSame] at notSame

theorem add
    (wellPatched : graph.WellPatched)
    (unit : U)
    (position : Position) :
    (graph.add unit position).WellPatched := by
  refine (wellPatched_iff _).mpr ⟨?_, wellPatched.not_joinsSame⟩
  intro patch member
  apply (wellPatched.fits member).of_unit?
  intro id present _ found
  exact ⟨present, unit?_add_of_some found unit position, rfl⟩

/-- Removing a module removes its patches, and the other patches keep their modules. -/
theorem remove?
    (wellPatched : graph.WellPatched)
    {id : ModuleId}
    {unit : U}
    {rest : Graph U}
    (removed : graph.remove? id = some (unit, rest)) :
    rest.WellPatched := by
  obtain ⟨_, _, patchesLeft, _⟩ := remove?_some removed
  refine (wellPatched_iff _).mpr ⟨?_, ?_⟩
  · intro patch member
    rw [patchesLeft, List.mem_filter] at member
    obtain ⟨present, notInvolved⟩ := member
    apply (wellPatched.fits present).of_unit?
    intro other kept involved found
    have different : other ≠ id := by
      rintro rfl
      simp [involved] at notInvolved
    exact ⟨kept, (unit?_remove?_of_ne removed different).trans found, rfl⟩
  · rw [patchesLeft]
    exact wellPatched.not_joinsSame.filter _

/-- Patches stay at a module whose unit is replaced by one with the same sockets. -/
theorem replaceUnit
    (wellPatched : graph.WellPatched)
    {id : ModuleId}
    {unit replacement : U}
    (found : graph.unit? id = some unit)
    (sameSockets : UnitLike.sockets replacement = UnitLike.sockets unit) :
    (graph.replaceUnit id replacement).WellPatched := by
  refine (wellPatched_iff _).mpr ⟨?_, wellPatched.not_joinsSame⟩
  intro patch member
  apply (wellPatched.fits member).of_unit?
  intro other present _ presentFound
  by_cases same : other = id
  · subst same
    rw [found, Option.some.injEq] at presentFound
    subst presentFound
    exact ⟨replacement, unit?_replaceUnit_self found replacement, sameSockets⟩
  · exact ⟨present, (unit?_replaceUnit_of_ne graph same replacement).trans presentFound, rfl⟩

theorem setDial?
    [LawfulUnit U]
    (wellPatched : graph.WellPatched)
    {id : ModuleId}
    {dial : String}
    {value : Double}
    {turned : Graph U}
    (isTurned : graph.setDial? id dial value = some turned) :
    turned.WellPatched := by
  obtain ⟨unit, turnedUnit, found, unitTurned, rfl⟩ := setDial?_some isTurned
  exact wellPatched.replaceUnit found (LawfulUnit.sockets_setDial? unitTurned)

theorem move
    (wellPatched : graph.WellPatched)
    (id : ModuleId)
    (position : Position) :
    (graph.move id position).WellPatched := by
  refine (wellPatched_iff _).mpr ⟨?_, wellPatched.not_joinsSame⟩
  intro patch member
  apply (wellPatched.fits member).of_unit?
  intro other present _ found
  exact ⟨present, (unit?_move graph id position other).trans found, rfl⟩

theorem connect
    (wellPatched : graph.WellPatched)
    {first second : Endpoint}
    {change : Change}
    {patched : Graph U}
    (isPatched : graph.connect first second = .ok (change, patched)) :
    patched.WellPatched := by
  obtain ⟨patch, isCandidate, toggled⟩ := connect_eq_ok_iff.mp isPatched
  have fits := (candidate_eq_ok_iff.mp isCandidate).1
  have patchedShape : patched = (graph.toggle patch).2 := by
    rw [toggled]
  subst patchedShape
  refine (wellPatched_iff _).mpr ⟨?_, pairwise_toggle patch wellPatched.not_joinsSame⟩
  intro other member
  have otherFits : graph.Fits other := by
    rcases mem_toggle member with present | rfl
    · exact wellPatched.fits present
    · exact fits
  apply otherFits.of_unit?
  intro id unit _ found
  refine ⟨unit, ?_, rfl⟩
  simpa only [unit?, module?, toggle_modules] using found

/-- Every operation keeps a graph well patched, whether it succeeds or not. -/
theorem apply
    [LawfulUnit U]
    (wellPatched : graph.WellPatched)
    (operation : Operation U) :
    (graph.apply operation).WellPatched := by
  cases operation with
  | add unit position =>
      exact wellPatched.add unit position
  | remove id =>
      simp only [Graph.apply]
      split
      · rename_i removed
        exact wellPatched.remove? removed
      · exact wellPatched
  | setDial id dial value =>
      simp only [Graph.apply]
      cases isTurned : graph.setDial? id dial value with
      | none =>
          exact wellPatched
      | some turned =>
          exact wellPatched.setDial? isTurned
  | connect first second =>
      simp only [Graph.apply]
      split
      · rename_i isPatched
        exact wellPatched.connect isPatched
      · exact wellPatched

end WellPatched

/-- Every run from the empty graph ends in a well patched graph. -/
theorem wellPatched_run
    [LawfulUnit U]
    (operations : List (Operation U)) :
    (empty.run operations).WellPatched :=
  run_induction (fun _ operation wellPatched => wellPatched.apply operation)
    wellPatched_empty operations

/-- The patches of instruments and of sequences are well typed and joined once, always. -/
theorem catalogs_wellPatched :
    (∀ operations : List (Operation InstrumentUnit), (empty.run operations).WellPatched) ∧
      ∀ operations : List (Operation SequenceUnit), (empty.run operations).WellPatched :=
  ⟨wellPatched_run, wellPatched_run⟩

end SynthGraph.Graph
