import SynthGraph.Proofs.Definition.Reloading
import SynthGraph.Proofs.Graph.Shape
import SynthGraph.Proofs.Graph.Sparing
import SynthGraph.Proofs.Graph.Steps

namespace SynthGraph

/-!
# What the document of an instrument depends on

Only the part of an instrument that feeds its first output is heard.  Instruments
whose parts have one shape compile to the same document (`compile?_of_sameShape`),
and no change elsewhere changes the document (`compile?_run`).
-/

namespace Graph

/-- The first output of a graph of sound units, if it has one. -/
def outputs (graph : Graph InstrumentUnit) : List ModuleId :=
  (graph.findKind? InstrumentUnit.outputKind).toList

theorem live_outputs
    (graph : Graph InstrumentUnit) :
    ∀ output ∈ graph.outputs, (graph.module? output).isSome := by
  intro output isOutput
  exact live_of_findKind? (Option.mem_toList.mp isOutput)

theorem outputs_eq
    {graph : Graph InstrumentUnit}
    {output : ModuleId}
    (isOutput : output ∈ graph.outputs) :
    graph.outputs = [output] := by
  rw [outputs, Option.mem_toList.mp isOutput, Option.toList_some]

end Graph

namespace Instrument

open SynthGraph.Graph

section Shapes

variable {first second : Instrument} (number : ModuleId → ModuleId)

/-- Instruments compile alike if their first outputs emit the same. -/
theorem compile?_congr
    (sameName : second.name = first.name)
    (sameBankIndex : second.bankIndex = first.bankIndex)
    (sameOutputs : second.graph.outputs = first.graph.outputs.map number)
    (sameEmissions :
      ∀ output ∈ first.graph.outputs,
        (second.emissions (number output)).get? (number output) =
          (first.emissions output).get? output) :
    second.compile? = first.compile? := by
  have sameLabel : second.label = first.label := by
    funext document
    simp only [label, sameName, sameBankIndex]
  have sameOutput :
      second.graph.findKind? InstrumentUnit.outputKind =
        (first.graph.findKind? InstrumentUnit.outputKind).map number := by
    simpa [outputs] using congrArg List.head? sameOutputs
  simp only [compile?, sameOutput, sameLabel]
  cases isOutput : first.graph.findKind? InstrumentUnit.outputKind with
  | none =>
      rfl
  | some output =>
      have sameEmission := sameEmissions output (Option.mem_toList.mpr isOutput)
      simp only [Option.map_some, Option.bind_eq_bind, Option.bind_some, sameEmission]

variable {number}

/-- Parts of one shape behind the outputs are heard alike. -/
theorem compile?_of_sameShape
    (wellPatched : first.graph.WellPatched)
    (otherWellPatched : second.graph.WellPatched)
    (sameName : second.name = first.name)
    (sameBankIndex : second.bankIndex = first.bankIndex)
    (sameShape : SameShape number first.graph first.graph.outputs second.graph second.graph.outputs) :
    second.compile? = first.compile? := by
  apply compile?_congr number sameName sameBankIndex sameShape.sinks_eq
  intro output isOutput
  have live := live_outputs first.graph
  have reduced :=
    sameShape.get?_reduce live wellPatched otherWellPatched ()
      ⟨output, isOutput, live output isOutput, .refl⟩
  rwa [sameShape.sinks_eq, outputs_eq isOutput, List.map_singleton] at reduced

end Shapes

section Changes

variable {instrument : Instrument}

/-- An output into which nothing is patched is not heard. -/
theorem compile?_of_unpatched
    (wellPatched : instrument.graph.WellPatched)
    {output : ModuleId}
    (isOutput : instrument.graph.findKind? InstrumentUnit.outputKind = some output)
    (isUnit : instrument.graph.unit? output = some .output)
    (unpatched : ∀ patch ∈ instrument.graph.patches, patch.target.module ≠ output) :
    instrument.compile? = none := by
  simp only [compile?, isOutput, Option.bind_eq_bind, Option.bind_some]
  cases found : (instrument.emissions output).get? output with
  | none =>
      rfl
  | some emission =>
      obtain ⟨earlier, unit, sameUnit, rfl⟩ := step_of_get? found
      rw [isUnit, Option.some.injEq] at sameUnit
      subst sameUnit
      have noProducers : instrument.graph.producersInto ⟨output, "IN"⟩ = [] := by
        rw [List.eq_nil_iff_forall_not_mem]
        intro producer member
        obtain ⟨patch, isPatch, isTarget, _⟩ := mem_producersInto.mp member
        exact unpatched patch isPatch (congrArg Endpoint.module isTarget)
      have isInput : Socket.input "IN" .audio ∈ UnitLike.inputs InstrumentUnit.output :=
        List.mem_cons_self
      have atInput := producersAt_of_input wellPatched (hasSocket_of_mem_inputs isUnit isInput)
      have nothingArrives :
          instrument.graph.arrivals (instrument.graph.schedule [output]) earlier ⟨output, "IN"⟩ =
            [] := by
        simp only [Socket.input, noProducers] at atInput
        simp [arrivals, atInput, byRank]
      have arriving :=
        Connections.get_ofSockets
          (fun name =>
            instrument.graph.arrivals (instrument.graph.schedule [output]) earlier ⟨output, name⟩)
          isInput
      simp only [Socket.input, nothingArrives] at arriving
      rw [connections_eq_ofSockets]
      simp only [UnitLike.compile, InstrumentUnit.compile, Connections.resolve?,
        Connections.documents, arriving]
      rfl

/-- The first output stays the first, and where there is none only adding makes one. -/
theorem findKind?_apply
    (numbered : instrument.graph.Numbered)
    {operation : Operation InstrumentUnit}
    (spares : instrument.graph.Spares instrument.graph.outputs operation) :
    (instrument.graph.apply operation).findKind? InstrumentUnit.outputKind =
        instrument.graph.findKind? InstrumentUnit.outputKind ∨
      instrument.graph.findKind? InstrumentUnit.outputKind = none ∧
        ∃ position, operation = .add .output position := by
  cases operation with
  | add unit position =>
      rw [Graph.apply, findKind?_add]
      by_cases isKind : UnitLike.kind unit = InstrumentUnit.outputKind
      · obtain rfl := InstrumentUnit.eq_output_of_kind isKind
        cases isOutput : instrument.graph.findKind? InstrumentUnit.outputKind with
        | none =>
            exact .inr ⟨rfl, position, rfl⟩
        | some output =>
            exact .inl rfl
      · simp [isKind]
  | remove id =>
      left
      have notFirst : instrument.graph.findKind? InstrumentUnit.outputKind ≠ some id := by
        intro isOutput
        exact spares
          ⟨id, Option.mem_toList.mpr isOutput, live_of_findKind? isOutput, .refl⟩
      simp only [Graph.apply]
      split
      · rename_i removed
        exact findKind?_remove? removed notFirst
      · rfl
  | setDial id dial value =>
      left
      simp only [Graph.apply]
      cases isTurned : instrument.graph.setDial? id dial value with
      | none =>
          rfl
      | some turned =>
          obtain ⟨unit, turnedUnit, found, unitTurned, rfl⟩ := setDial?_some isTurned
          obtain ⟨dials, _, rfl⟩ := Option.map_eq_some_iff.mp unitTurned
          have sameKind : UnitLike.kind (unit.withDials dials) = UnitLike.kind unit := by
            cases unit <;> rfl
          exact findKind?_replaceUnit numbered found sameKind _
  | connect first second =>
      left
      simp only [Graph.apply]
      split
      · rename_i isPatched
        obtain ⟨patch, _, toggled⟩ := connect_eq_ok_iff.mp isPatched
        have sameModules := toggle_modules instrument.graph patch
        simp only [toggled] at sameModules
        simp only [findKind?, modulesOfKind, sameModules]
      · rfl

/-- An operation that spares what feeds the output does not change the document. -/
theorem compile?_apply
    (wellPatched : instrument.graph.WellPatched)
    (numbered : instrument.graph.Numbered)
    {operation : Operation InstrumentUnit}
    (spares : instrument.graph.Spares instrument.graph.outputs operation) :
    compile? { instrument with graph := instrument.graph.apply operation } =
      instrument.compile? := by
  rcases findKind?_apply numbered spares with
    sameOutput | ⟨noOutput, position, rfl⟩
  · refine compile?_congr id rfl rfl ?_ ?_
    · rw [outputs, sameOutput, List.map_id]
      rfl
    · intro output isOutput
      have agrees :=
        agreesBehind_apply (live_outputs instrument.graph) wellPatched spares
      have reduced := agrees.reduce_eq wellPatched (wellPatched.apply operation) ()
      rw [outputs_eq isOutput] at reduced
      simp only [emissions, id_eq, reduced]
  · -- The new output is heard, but nothing is patched into it yet.
    have silent : instrument.compile? = none := by
      simp [compile?, noOutput]
    rw [silent]
    have isNew : (instrument.graph.add .output position).unit? instrument.graph.nextId =
        some .output := by
      have notOld : instrument.graph.unit? instrument.graph.nextId = none := by
        rw [Option.eq_none_iff_forall_not_mem]
        intro unit found
        exact Nat.lt_irrefl _ (numbered.lt_nextId found)
      simp [unit?_add, notOld]
    refine compile?_of_unpatched (wellPatched.add .output position) ?_ isNew ?_
    · have isOutput : UnitLike.kind InstrumentUnit.output = InstrumentUnit.outputKind := rfl
      simp [Graph.apply, findKind?_add, noOutput, isOutput]
    · intro patch member isNext
      obtain ⟨unit, found, _⟩ := wellPatched.target_input patch member
      exact Nat.ne_of_lt (numbered.lt_nextId found) isNext

end Changes

/-- No change elsewhere is heard, however many there are. -/
theorem compile?_run
    {instrument : Instrument}
    (wellPatched : instrument.graph.WellPatched)
    (numbered : instrument.graph.Numbered)
    {operations : List (Operation InstrumentUnit)}
    (spares : instrument.graph.SparesThroughout outputs operations) :
    compile? { instrument with graph := instrument.graph.run operations } =
      instrument.compile? := by
  induction operations generalizing instrument with
  | nil =>
      rfl
  | cons operation rest inductionHypothesis =>
      obtain ⟨sparesFirst, sparesRest⟩ := spares
      let changed : Instrument := { instrument with graph := instrument.graph.apply operation }
      have later : compile? { changed with graph := changed.graph.run rest } = changed.compile? :=
        inductionHypothesis (wellPatched.apply operation) (numbered.apply operation) sparesRest
      exact later.trans (compile?_apply wellPatched numbered sparesFirst)

/--
The document of a reachable instrument depends on its name, its bank slot and the
shape of what feeds its first output.  So other numbers and another order of the
modules make no difference, and neither does any run of operations on what does
not feed the output.
-/
theorem compile?_depends_on_shape :
    (∀ (first second : Instrument) (number : ModuleId → ModuleId),
        first.Reachable →
          second.Reachable →
            second.name = first.name →
              second.bankIndex = first.bankIndex →
                SameShape number first.graph first.graph.outputs
                    second.graph second.graph.outputs →
                  second.compile? = first.compile?) ∧
      (∀ (first second : Instrument) (number : ModuleId → ModuleId),
        first.Reachable →
          second.Reachable →
            second.name = first.name →
              second.bankIndex = first.bankIndex →
                Reordered number first.graph second.graph →
                  second.graph.outputs = first.graph.outputs.map number →
                    second.compile? = first.compile?) ∧
      ∀ (instrument : Instrument) (operations : List (Operation InstrumentUnit)),
        instrument.Reachable →
          instrument.graph.SparesThroughout outputs operations →
            compile? { instrument with graph := instrument.graph.run operations } =
              instrument.compile? := by
  refine ⟨?_, ?_, ?_⟩
  · intro first second number firstReachable secondReachable sameName sameBankIndex sameShape
    exact compile?_of_sameShape firstReachable.storable.wellPatched
      secondReachable.storable.wellPatched sameName sameBankIndex sameShape
  · intro first second number firstReachable secondReachable sameName sameBankIndex reordered
      sameOutputs
    have sameShape :=
      reordered.sameShape firstReachable.storable.wellPatched secondReachable.storable.numbered
        (live_outputs first.graph)
    rw [← sameOutputs] at sameShape
    exact compile?_of_sameShape firstReachable.storable.wellPatched
      secondReachable.storable.wellPatched sameName sameBankIndex sameShape
  · intro instrument operations reachable spares
    exact compile?_run reachable.storable.wellPatched reachable.storable.numbered spares

/-- A sine behind a filter that feeds itself. -/
def ringing : List (Operation InstrumentUnit) :=
  [.add (.ofWaveform .sine) .origin,
    .add (.ofMode .lowPass) .origin,
    .connect ⟨0, "FREQ"⟩ ⟨2, "FREQ"⟩,
    .connect ⟨2, "OUT"⟩ ⟨3, "IN"⟩,
    .connect ⟨3, "OUT"⟩ ⟨3, "IN"⟩,
    .connect ⟨3, "OUT"⟩ ⟨1, "IN"⟩]

/-- The same, made in another order. -/
def ringingReordered : List (Operation InstrumentUnit) :=
  [.add (.ofMode .lowPass) .origin,
    .add (.ofWaveform .saw) .origin,
    .remove 3,
    .add (.ofWaveform .sine) .origin,
    .connect ⟨0, "FREQ"⟩ ⟨4, "FREQ"⟩,
    .connect ⟨4, "OUT"⟩ ⟨2, "IN"⟩,
    .connect ⟨2, "IN"⟩ ⟨2, "OUT"⟩,
    .connect ⟨2, "OUT"⟩ ⟨1, "IN"⟩]

/-- A second output with a filter that listens to the sine and to itself. -/
def overheard : List (Operation InstrumentUnit) :=
  [.add .output .origin,
    .add (.ofMode .highPass) .origin,
    .connect ⟨2, "OUT"⟩ ⟨5, "IN"⟩,
    .connect ⟨5, "OUT"⟩ ⟨5, "IN"⟩,
    .connect ⟨5, "OUT"⟩ ⟨4, "IN"⟩,
    .setDial 5 "cutoff" 440,
    .connect ⟨5, "OUT"⟩ ⟨5, "IN"⟩,
    .remove 4]

/-- On a cycle too, order and bystanders are not heard. -/
theorem compile?_depends_on_shape_ringing :
    let number : ModuleId → ModuleId := fun id => [0, 1, 4, 2].getD id id
    let first : Instrument := ⟨some "bell", some 2, Instrument.new.graph.run ringing⟩
    let second : Instrument := ⟨some "bell", some 2, Instrument.new.graph.run ringingReordered⟩
    let third : Instrument := { first with graph := first.graph.run overheard }
    first.compile?.isSome ∧
      SameShape number third.graph third.graph.outputs second.graph second.graph.outputs ∧
      second.compile? = third.compile? ∧
      second.compile? = first.compile? ∧
      third.compile? = first.compile? := by
  intro number first second third
  have firstReachable : first.Reachable :=
    reachable_run (Operation.drawn_of_isPlain (by decide +kernel)) _ _
  have secondReachable : second.Reachable :=
    reachable_run (Operation.drawn_of_isPlain (by decide +kernel)) _ _
  have thirdReachable : third.Reachable :=
    firstReachable.edit (.run (Operation.drawn_of_isPlain (by decide +kernel)))
  have sameShape :
      SameShape number third.graph third.graph.outputs second.graph second.graph.outputs := by
    apply SameShape.of_discover <;> decide +kernel
  have reordered : Reordered number first.graph second.graph := by
    constructor <;> decide +kernel
  refine ⟨by decide +kernel, sameShape, ?_, ?_, ?_⟩
  · exact compile?_depends_on_shape.1 third second number thirdReachable secondReachable rfl rfl
      sameShape
  · exact compile?_depends_on_shape.2.1 first second number firstReachable secondReachable rfl rfl
      reordered (by decide +kernel)
  · exact compile?_depends_on_shape.2.2 first overheard firstReachable (by decide +kernel)

end Instrument

end SynthGraph
