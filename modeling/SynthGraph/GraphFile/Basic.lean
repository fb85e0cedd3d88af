import SynthGraph.Definition.Error
import SynthGraph.Entries
import SynthGraph.Instrument
import SynthGraph.Sequence

namespace SynthGraph

/-!
# Graph files

A graph file holds one graph as the editor shows it: every module with its place
and dials, and every patch by the positions of its modules.  Capturing a graph
and rebuilding it loses nothing but the numbers of removed modules.
-/

/-- Values of dials by name, sorted by name. -/
structure DialValues where
  entries : Entries Double
  sorted : Entries.Sorted entries
  deriving DecidableEq

namespace DialValues

/-- Values given in any order; the last value of a name counts. -/
def ofList (values : List (String × Double)) : DialValues :=
  ⟨Entries.ofList values, Entries.sorted_ofList values⟩

/-- No values. -/
def empty : DialValues :=
  ofList []

end DialValues

/-- A module in a file. -/
structure FileNode where
  kind : String
  position : Position
  dials : DialValues
  sample : Option Sample
  deriving DecidableEq

/-- A patch in a file, between positions in the list of nodes. -/
structure FileConnection where
  fromNode : UInt64
  fromSocket : String
  toNode : UInt64
  toSocket : String
  deriving DecidableEq, Repr

/-- A saved graph. -/
structure GraphFile where
  name : Option String
  version : UInt32
  kind : GraphKind
  bankIndex : Option UInt32
  channel : Option UInt8
  nodes : List FileNode
  connections : List FileConnection
  deriving DecidableEq

namespace GraphFile

/-- The latest version of the format. -/
def latestVersion : UInt32 := 1

/-- Whether the format of a file is known. -/
def isCompatible (file : GraphFile) : Bool :=
  file.version ≤ latestVersion

section Capture

variable {U : Type} [UnitLike U]

/-- A module as a node of a file. -/
def captureModule (sample? : U → Option Sample) (module : Module U) : FileNode :=
  { kind := UnitLike.kind module.unit
    position := module.position
    dials := .ofList ((UnitLike.dials module.unit).map fun dial => (dial.id, dial.value))
    sample := sample? module.unit }

/-- A patch by the positions of its modules. -/
def capturePatch? (graph : Graph U) (patch : Patch) : Option FileConnection := do
  let fromNode ← graph.indexOf? patch.source.module
  let toNode ← graph.indexOf? patch.target.module
  return ⟨.ofNat fromNode, patch.source.socket, .ofNat toNode, patch.target.socket⟩

end Capture

/-- The file of an instrument. -/
def ofInstrument (instrument : Instrument) : GraphFile :=
  { name := instrument.name
    version := latestVersion
    kind := .instrument
    bankIndex := instrument.bankIndex
    channel := none
    nodes := instrument.graph.modules.map (captureModule InstrumentUnit.sample?)
    connections := instrument.graph.patches.filterMap (capturePatch? instrument.graph) }

/-- The file of a sequence under a name. -/
def ofSequence (name : String) (sequence : Sequence) : GraphFile :=
  { name := some name
    version := latestVersion
    kind := .sequence
    bankIndex := none
    channel := some sequence.channel
    nodes := sequence.graph.modules.map (captureModule fun _ => none)
    connections := sequence.graph.patches.filterMap (capturePatch? sequence.graph) }

section Rebuild

variable {U : Type} [UnitLike U]

/-- Turn the dials that a node names; names without a dial are passed over. -/
def turnDials (unit : U) (dials : DialValues) : U :=
  dials.entries.foldl (fun unit entry => UnitLike.setDial unit entry.1 entry.2) unit

/-- The unit of a node. -/
def nodeUnit
    (registry : Registry U)
    (withSample : Sample → U → U)
    (node : FileNode) :
    Except DefinitionError U :=
  match registry.create? node.kind with
  | none => .error (.unknownKind node.kind)
  | some unit =>
      let turned := turnDials unit node.dials
      .ok (match node.sample with
        | some sample => withSample sample turned
        | none => turned)

/-- Add the modules of nodes in order. -/
def addNodes
    (registry : Registry U)
    (withSample : Sample → U → U)
    (graph : Graph U) :
    List FileNode → Except DefinitionError (Graph U)
  | [] => .ok graph
  | node :: rest => do
      let unit ← nodeUnit registry withSample node
      addNodes registry withSample (graph.add unit node.position) rest

/-- The module of a node; nodes are numbered from zero like the modules of a new graph. -/
def nodeModule (count : Nat) (index : UInt64) : Except DefinitionError ModuleId :=
  if index.toNat < count then .ok index.toNat else .error (.missingNode index)

/-- How the end of a connection is shown. -/
def endLabel (index : UInt64) (socket : String) : String :=
  toString index.toNat ++ "." ++ socket

/-- Make the patch of a connection, which may not be there yet. -/
def addConnection
    (count : Nat)
    (graph : Graph U)
    (connection : FileConnection) :
    Except DefinitionError (Graph U) := do
  let fromModule ← nodeModule count connection.fromNode
  let toModule ← nodeModule count connection.toNode
  let source : Endpoint := ⟨fromModule, connection.fromSocket⟩
  let target : Endpoint := ⟨toModule, connection.toSocket⟩
  let sourceLabel := endLabel connection.fromNode connection.fromSocket
  let targetLabel := endLabel connection.toNode connection.toSocket
  if graph.hasPatch source target then
    .error (.duplicateConnection sourceLabel targetLabel)
  else
    match graph.connect source target with
    | .ok (_, patched) => .ok patched
    | .error cause => .error (.invalidConnection sourceLabel targetLabel cause)

/-- Make the patches of connections in order. -/
def addConnections
    (count : Nat)
    (graph : Graph U) :
    List FileConnection → Except DefinitionError (Graph U)
  | [] => .ok graph
  | connection :: rest => do
      let patched ← addConnection count graph connection
      addConnections count patched rest

/-- The graph that nodes and connections describe. -/
def rebuild
    (registry : Registry U)
    (withSample : Sample → U → U)
    (nodes : List FileNode)
    (connections : List FileConnection) :
    Except DefinitionError (Graph U) := do
  let graph ← addNodes registry withSample .empty nodes
  addConnections nodes.length graph connections

end Rebuild

/-- Refuse a file of the other kind. -/
def expectKind (file : GraphFile) (expected : GraphKind) : Except DefinitionError Unit :=
  if file.kind = expected then .ok () else .error (.kindMismatch expected file.kind)

/-- The instrument in a file. -/
def toInstrument (file : GraphFile) : Except DefinitionError Instrument := do
  file.expectKind .instrument
  let graph ←
    rebuild InstrumentUnit.registry InstrumentUnit.withSample file.nodes file.connections
  return ⟨file.name, file.bankIndex, graph⟩

/-- The sequence in a file. -/
def toSequence (file : GraphFile) : Except DefinitionError Sequence := do
  file.expectKind .sequence
  let graph ←
    rebuild SequenceUnit.registry (fun _ unit => unit) file.nodes file.connections
  return ⟨file.channel.getD Sequence.defaultChannel, graph⟩

end GraphFile

end SynthGraph
