import SynthGraph.Unit
import SynthGraph.Graph.Connection

namespace SynthGraph

/-!
# Patch graphs

A graph holds modules in the order in which they were added and patches in the
order in which they were made.  Every patch leads from an output to an input of
modules that are there, both ends carry its signal, and no two patches join the
same sockets: all changes go through the operations below, which keep this so.
-/

/-- A place in the editor. -/
structure Position where
  x : Single
  y : Single
  deriving Repr, DecidableEq

/-- The upper left corner. -/
def Position.origin : Position :=
  ⟨0, 0⟩

/-- A unit placed in a graph. -/
structure Module (U : Type) where
  id : ModuleId
  position : Position
  unit : U
  deriving Repr, DecidableEq

/-- Modules, the patches between them, and the number of the next module. -/
structure Graph (U : Type) where
  modules : List (Module U)
  patches : List Patch
  nextId : ModuleId
  deriving Repr, DecidableEq

namespace Graph

variable {U : Type}

/-- A graph without modules. -/
def empty : Graph U :=
  ⟨[], [], 0⟩

/-- The module with a number. -/
def module? (graph : Graph U) (id : ModuleId) : Option (Module U) :=
  graph.modules.find? (·.id = id)

/-- The unit of a module. -/
def unit? (graph : Graph U) (id : ModuleId) : Option U :=
  (graph.module? id).map Module.unit

/-- How many modules were added before a module and are still there. -/
def indexOf? (graph : Graph U) (id : ModuleId) : Option Nat :=
  graph.modules.findIdx? (·.id = id)

/-- Add a unit at a place; the new module gets the next number. -/
def add (graph : Graph U) (unit : U) (position : Position) : Graph U :=
  { modules := graph.modules ++ [⟨graph.nextId, position, unit⟩]
    patches := graph.patches
    nextId := graph.nextId + 1 }

/-- Remove a module with all its patches; its unit is handed back. -/
def remove? (graph : Graph U) (id : ModuleId) : Option (U × Graph U) :=
  match graph.unit? id with
  | none => none
  | some unit =>
      some (unit,
        { graph with
          modules := graph.modules.filter (·.id ≠ id)
          patches := graph.patches.filter (!·.involves id) })

/-- Change one module in place. -/
def updateModule
    (graph : Graph U)
    (id : ModuleId)
    (update : Module U → Module U) :
    Graph U :=
  { graph with
    modules := graph.modules.map fun module =>
      if module.id = id then update module else module }

/-- Put another unit into a module. -/
def replaceUnit (graph : Graph U) (id : ModuleId) (unit : U) : Graph U :=
  graph.updateModule id fun module => { module with unit := unit }

/-- Move a module. -/
def move (graph : Graph U) (id : ModuleId) (position : Position) : Graph U :=
  graph.updateModule id fun module => { module with position := position }

/-- Whether a patch joins two sockets, in either direction. -/
def hasPatch (graph : Graph U) (first second : Endpoint) : Bool :=
  graph.patches.any (·.joins first second)

/-- The patches that end at a socket, at either end. -/
def patchesAt (graph : Graph U) (endpoint : Endpoint) : List Patch :=
  graph.patches.filter (·.touches endpoint)

/-- Whether any patch ends at a socket. -/
def isConnected (graph : Graph U) (endpoint : Endpoint) : Bool :=
  graph.patches.any (·.touches endpoint)

/-- Remove the patch that joins the same sockets, or add the patch if there is none. -/
def toggle (graph : Graph U) (patch : Patch) : Change × Graph U :=
  if graph.patches.any (·.joinsSame patch) then
    (.disconnected, { graph with patches := graph.patches.eraseP (·.joinsSame patch) })
  else
    (.connected, { graph with patches := graph.patches ++ [patch] })

variable [UnitLike U]

/-- The modules of a kind. -/
def modulesOfKind (graph : Graph U) (kind : String) : List ModuleId :=
  (graph.modules.filter (UnitLike.kind ·.unit = kind)).map Module.id

/-- The first module of a kind. -/
def findKind? (graph : Graph U) (kind : String) : Option ModuleId :=
  (graph.modulesOfKind kind).head?

/-- Turn a dial of a module; none if the module or the dial is not there. -/
def setDial?
    (graph : Graph U)
    (id : ModuleId)
    (dial : String)
    (value : Double) :
    Option (Graph U) := do
  let unit ← graph.unit? id
  let turned ← UnitLike.setDial? unit dial value
  return graph.replaceUnit id turned

/-- The unit at an end, if the module is there. -/
def unitAt (graph : Graph U) (endpoint : Endpoint) : Except ConnectionError U :=
  match graph.unit? endpoint.module with
  | some unit => .ok unit
  | none => .error (.moduleNotFound endpoint.module)

/-- The socket of a unit at an end, if the unit has it. -/
def socketAt (unit : U) (endpoint : Endpoint) : Except ConnectionError Socket :=
  match UnitLike.socket? unit endpoint.socket with
  | some socket => .ok socket
  | none => .error (.unknownSocket endpoint)

/--
The patch that joins two sockets, from the output to the input.  The first
cause that stands against it is reported.
-/
def candidate
    (graph : Graph U)
    (first second : Endpoint) :
    Except ConnectionError Patch := do
  let firstUnit ← graph.unitAt first
  let secondUnit ← graph.unitAt second
  if first = second then
    throw .selfConnection
  let firstSocket ← socketAt firstUnit first
  let secondSocket ← socketAt secondUnit second
  firstSocket.signal.validate secondSocket.signal
  if firstSocket.direction = secondSocket.direction then
    throw (.directionMismatch firstSocket.direction)
  if firstSocket.isOutput then
    return ⟨first, second, firstSocket.signal⟩
  else
    return ⟨second, first, firstSocket.signal⟩

/-- Toggle the patch between two sockets, named in either order. -/
def connect
    (graph : Graph U)
    (first second : Endpoint) :
    Except ConnectionError (Change × Graph U) :=
  graph.toggle <$> graph.candidate first second

end Graph

end SynthGraph
