import SynthGraph.Proofs.Graph.Discovery
import SynthGraph.Proofs.Unit.Signals

namespace SynthGraph

/-!
# Where audio goes

Filters and outputs hear audio, and nothing else.  What hears and sends sends
audio, so only units that hear are fed by it, directly or through other modules
(`Graph.hears_of_path`).  No filter stands behind a sound source.
-/

namespace InstrumentUnit

/-- Whether a unit has an audio input. -/
def hears : InstrumentUnit → Bool
  | filter _ _ | output => true
  | _ => false

section Sockets

variable {unit : InstrumentUnit} {name : String} {signal : Signal}

theorem hears_of_mem_sockets
    (isInput : .input name .audio ∈ UnitLike.sockets unit) :
    unit.hears := by
  cases unit <;>
    simp_all [UnitLike.sockets, sockets, Generator.sockets, Filter.sockets, Transpose.sockets,
      Panning.sockets, Socket.input, Socket.output, hears]

/-- Units that hear have one input. -/
theorem input_of_hears
    (hears : unit.hears)
    (isInput : .input name signal ∈ UnitLike.sockets unit) :
    name = "IN" ∧ signal = .audio := by
  cases unit <;>
    simp_all [UnitLike.sockets, sockets, Filter.sockets, Socket.input, Socket.output,
      InstrumentUnit.hears]

theorem audio_of_hears
    (hears : unit.hears)
    (isOutput : .output name signal ∈ UnitLike.sockets unit) :
    signal = .audio := by
  have isSent := sent?_of_mem_sockets isOutput
  cases unit <;> simp_all [InstrumentUnit.hears, sent?]

end Sockets

end InstrumentUnit

namespace Graph

variable {graph : Graph InstrumentUnit} (wellPatched : graph.WellPatched)

include wellPatched

/-- What is patched into a unit that hears ends at its one input. -/
theorem target_of_hears
    {patch : Patch}
    (member : patch ∈ graph.patches)
    {unit : InstrumentUnit}
    (found : graph.unit? patch.target.module = some unit)
    (hears : unit.hears) :
    patch.target = ⟨patch.target.module, "IN"⟩ := by
  have isInput := (wellPatched.target_input patch member).mem_sockets found
  rw [← (InstrumentUnit.input_of_hears hears isInput).1]

variable
  {producer consumer : ModuleId}
  {unit consumerUnit : InstrumentUnit}

/-- What hears feeds only what hears. -/
theorem hears_of_feeds
    (found : graph.unit? producer = some unit)
    (consumerFound : graph.unit? consumer = some consumerUnit)
    (feeds : graph.Feeds producer consumer)
    (hears : unit.hears) :
    consumerUnit.hears := by
  obtain ⟨patch, member, rfl, rfl⟩ := feeds
  have isOutput := (wellPatched.source_output patch member).mem_sockets found
  have isInput := (wellPatched.target_input patch member).mem_sockets consumerFound
  rw [InstrumentUnit.audio_of_hears hears isOutput] at isInput
  exact InstrumentUnit.hears_of_mem_sockets isInput

/-- What hears leads only to what hears. -/
theorem hears_of_path
    (found : graph.unit? producer = some unit)
    (consumerFound : graph.unit? consumer = some consumerUnit)
    (path : Relation.ReflTransGen graph.Feeds producer consumer)
    (hears : unit.hears) :
    consumerUnit.hears := by
  induction path using Relation.ReflTransGen.head_induction_on generalizing unit with
  | refl =>
      obtain rfl := Option.some.inj (found.symm.trans consumerFound)
      exact hears
  | head feeds _ inductionHypothesis =>
      obtain ⟨patch, member, _, isTarget⟩ := id feeds
      obtain ⟨next, nextFound, _⟩ := wellPatched.target_input patch member
      rw [isTarget] at nextFound
      exact inductionHypothesis nextFound (hears_of_feeds wellPatched found nextFound feeds hears)

end Graph

end SynthGraph
