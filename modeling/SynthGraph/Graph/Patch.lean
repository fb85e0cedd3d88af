import SynthGraph.Signal

namespace SynthGraph

/-!
# Patches

A patch is a cable from an output socket to an input socket.  Which end was
named first does not matter for what a patch joins.
-/

/-- The number of a module in its graph; numbers are never given out twice. -/
abbrev ModuleId := Nat

/-- How a module is shown. -/
def ModuleId.label (id : ModuleId) : String :=
  "#" ++ toString (id : Nat)

/-- A socket of a module. -/
structure Endpoint where
  module : ModuleId
  socket : String
  deriving Repr, DecidableEq

/-- How an end of a patch is shown. -/
def Endpoint.label (endpoint : Endpoint) : String :=
  ModuleId.label endpoint.module ++ "." ++ endpoint.socket

/-- A cable from an output to an input, with the signal that both ends carry. -/
structure Patch where
  source : Endpoint
  target : Endpoint
  signal : Signal
  deriving Repr, DecidableEq

namespace Patch

/-- Whether two patches join the same two sockets, in either direction. -/
def joinsSame (patch other : Patch) : Bool :=
  (patch.source = other.source && patch.target = other.target)
    || (patch.source = other.target && patch.target = other.source)

/-- Whether one end is at a socket. -/
def touches (patch : Patch) (endpoint : Endpoint) : Bool :=
  patch.source = endpoint || patch.target = endpoint

/-- Whether one end is on a module. -/
def involves (patch : Patch) (module : ModuleId) : Bool :=
  patch.source.module = module || patch.target.module = module

/-- The far end, seen from a socket; none if the patch does not end there. -/
def opposite? (patch : Patch) (endpoint : Endpoint) : Option Endpoint :=
  if patch.source = endpoint then
    some patch.target
  else if patch.target = endpoint then
    some patch.source
  else
    none

/-- Whether the patch joins two sockets, in either direction. -/
def joins (patch : Patch) (first second : Endpoint) : Bool :=
  (patch.source = first && patch.target = second)
    || (patch.source = second && patch.target = first)

/-- How a patch is shown. -/
def label (patch : Patch) : String :=
  patch.source.label ++ " → " ++ patch.target.label ++ " (" ++ patch.signal.name ++ ")"

/-- Joining the same sockets works both ways. -/
theorem joinsSame_comm (patch other : Patch) :
    patch.joinsSame other = other.joinsSame patch := by
  have first : decide (patch.source = other.source) = decide (other.source = patch.source) := by
    simp [eq_comm]
  have second : decide (patch.target = other.target) = decide (other.target = patch.target) := by
    simp [eq_comm]
  have third : decide (patch.source = other.target) = decide (other.target = patch.source) := by
    simp [eq_comm]
  have fourth : decide (patch.target = other.source) = decide (other.source = patch.target) := by
    simp [eq_comm]
  simp only [joinsSame, first, second, third, fourth]
  rw [Bool.and_comm (decide (other.target = patch.source))]

end Patch

end SynthGraph
