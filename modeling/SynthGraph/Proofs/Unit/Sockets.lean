import Mathlib
import SynthGraph.Unit.Instrument
import SynthGraph.Unit.Sequence

namespace SynthGraph

/-!
# The sockets of units

What a patch graph relies on in its units: the name of a socket tells it apart
from the other sockets of its unit, a unit gives out one signal at most, and
turning a dial changes no socket.  Both catalogs keep these rules.
-/

/-- Units whose sockets a patch can name. -/
class LawfulUnit (U : Type) [UnitLike U] : Prop where
  /-- A name stands for one socket. -/
  names_nodup (unit : U) : ((UnitLike.sockets unit).map Socket.name).Nodup
  /-- Signals leave at one socket at most. -/
  outputs_length (unit : U) : ((UnitLike.sockets unit).filter Socket.isOutput).length ≤ 1
  /-- Dials and sockets are independent. -/
  sockets_setDial? {unit turned : U} {id : String} {value : Double} :
    UnitLike.setDial? unit id value = some turned →
    UnitLike.sockets turned = UnitLike.sockets unit

namespace UnitLike

variable {U : Type} [UnitLike U]

theorem socket?_some
    {unit : U}
    {name : String}
    {socket : Socket}
    (found : socket? unit name = some socket) :
    socket ∈ sockets unit ∧ socket.name = name := by
  refine ⟨List.mem_of_find?_eq_some found, ?_⟩
  simpa using List.find?_some found

/-- Every socket of a unit is found by its name. -/
theorem socket?_of_mem
    [LawfulUnit U]
    {unit : U}
    {socket : Socket}
    (member : socket ∈ sockets unit) :
    socket? unit socket.name = some socket := by
  unfold socket?
  cases found : (sockets unit).find? (·.name = socket.name) with
  | none =>
      have missing := List.find?_eq_none.mp found socket member
      simp at missing
  | some other =>
      have sameName : other.name = socket.name := by
        simpa using List.find?_some found
      have same : other = socket :=
        List.inj_on_of_nodup_map (LawfulUnit.names_nodup unit)
          (List.mem_of_find?_eq_some found) member sameName
      rw [same]

/-- Two outputs of a unit are the same socket. -/
theorem output_unique
    [LawfulUnit U]
    {unit : U}
    {first second : Socket}
    (firstMember : first ∈ sockets unit)
    (secondMember : second ∈ sockets unit)
    (firstOutput : first.direction = .output)
    (secondOutput : second.direction = .output) :
    first = second := by
  have firstKept : first ∈ (sockets unit).filter Socket.isOutput := by
    simp [firstMember, Socket.isOutput, firstOutput]
  have secondKept : second ∈ (sockets unit).filter Socket.isOutput := by
    simp [secondMember, Socket.isOutput, secondOutput]
  have atMostOne := LawfulUnit.outputs_length unit
  match outputs : (sockets unit).filter Socket.isOutput with
  | [] =>
      simp [outputs] at firstKept
  | [only] =>
      simp only [outputs, List.mem_singleton] at firstKept secondKept
      rw [firstKept, secondKept]
  | _ :: _ :: _ =>
      simp [outputs] at atMostOne

theorem socket?_congr
    {unit other : U}
    (same : sockets other = sockets unit)
    (name : String) :
    socket? other name = socket? unit name := by
  simp only [socket?, same]

end UnitLike

namespace InstrumentUnit

theorem sockets_withDials
    (dials : Dials)
    (unit : InstrumentUnit) :
    (unit.withDials dials).sockets = unit.sockets := by
  cases unit <;> rfl

instance : LawfulUnit InstrumentUnit where
  names_nodup unit := by
    cases unit <;>
      simp [UnitLike.sockets, sockets, Generator.sockets, Filter.sockets,
        Transpose.sockets, Panning.sockets, Socket.input, Socket.output]
  outputs_length unit := by
    cases unit <;>
      simp [UnitLike.sockets, sockets, Generator.sockets, Filter.sockets,
        Transpose.sockets, Panning.sockets, Socket.input, Socket.output,
        Socket.isOutput]
  sockets_setDial? := by
    intro unit turned id value isTurned
    obtain ⟨dials, _, rfl⟩ := Option.map_eq_some_iff.mp isTurned
    exact sockets_withDials dials unit

end InstrumentUnit

namespace SequenceUnit

theorem sockets_withDials
    (dials : Dials)
    (unit : SequenceUnit) :
    (unit.withDials dials).sockets = unit.sockets := by
  cases unit <;> rfl

instance : LawfulUnit SequenceUnit where
  names_nodup unit := by
    cases unit <;> simp [UnitLike.sockets, sockets, Socket.input, Socket.output]
  outputs_length unit := by
    cases unit <;>
      simp [UnitLike.sockets, sockets, Socket.input, Socket.output, Socket.isOutput]
  sockets_setDial? := by
    intro unit turned id value isTurned
    obtain ⟨dials, _, rfl⟩ := Option.map_eq_some_iff.mp isTurned
    exact sockets_withDials dials unit

end SequenceUnit

end SynthGraph
