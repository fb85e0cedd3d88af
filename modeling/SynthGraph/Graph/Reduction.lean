import SynthGraph.Graph.Schedule

namespace SynthGraph

/-!
# Reduction

A graph is reduced by compiling its scheduled modules one after the other.  A
module sees, at each of its input sockets, what the modules patched into that
socket emitted before, in order of their discovery.
-/

/-- Modules with what they emitted, in compile order. -/
abbrev Emissions := List (ModuleId × Emission)

namespace Emissions

/-- What a module emitted. -/
def get? (emissions : Emissions) (id : ModuleId) : Option Emission :=
  (emissions.find? (·.1 = id)).map Prod.snd

end Emissions

namespace Graph

variable {U : Type}

/-- The modules patched into a socket, once for every patch, in patch order. -/
def producersAt (graph : Graph U) (endpoint : Endpoint) : List ModuleId :=
  ((graph.patchesAt endpoint).filterMap (·.opposite? endpoint)).map Endpoint.module

/-- Modules in order of their discovery; modules that were not discovered come last. -/
def byRank (schedule : Schedule) (modules : List ModuleId) : List ModuleId :=
  let key := fun id => (schedule.rank? id).getD schedule.discovery.length
  modules.mergeSort fun first second => key first ≤ key second

/-- What arrives at a socket: the emissions of its producers that are compiled already. -/
def arrivals
    (graph : Graph U)
    (schedule : Schedule)
    (emissions : Emissions)
    (endpoint : Endpoint) :
    List Emission :=
  (byRank schedule (graph.producersAt endpoint)).filterMap (Emissions.get? emissions)

variable [UnitLike U]

/-- What arrives at the input sockets of a module. -/
def connections
    (graph : Graph U)
    (schedule : Schedule)
    (emissions : Emissions)
    (id : ModuleId)
    (unit : U) :
    Connections :=
  (UnitLike.inputs unit).foldl
    (fun connections socket =>
      match graph.arrivals schedule emissions ⟨id, socket.name⟩ with
      | [] => connections
      | arrived => connections.insert socket.name arrived)
    .empty

/-- Compile one more module, if it is there. -/
def emitNext
    (graph : Graph U)
    (context : UnitLike.Context U)
    (schedule : Schedule)
    (emissions : Emissions)
    (id : ModuleId) :
    Emissions :=
  match graph.unit? id with
  | none => emissions
  | some unit =>
      emissions ++
        [(id, UnitLike.compile context (graph.connections schedule emissions id unit) unit)]

/-- Compile every module that the sinks depend on. -/
def reduce
    (graph : Graph U)
    (context : UnitLike.Context U)
    (sinks : List ModuleId) :
    Emissions :=
  let schedule := graph.schedule sinks
  schedule.emission.foldl (graph.emitNext context schedule) []

end Graph

end SynthGraph
