import SynthGraph.GraphFile.Basic
import SynthGraph.Json.Record

namespace SynthGraph

/-!
# The text of graph files

Files are written with one entry a line, fields in declared order, absent
optional fields left out.  They are read back by the rules of records.
-/

namespace GraphFile

/-- The sample that a record spells. -/
def readSample? (value : Json) : Option Sample := do
  match ← value.slots? ["file", "pitched", "base_pitch"] with
  | [file, pitched, basePitch] =>
      let file ← Record.required? Json.string? file
      let pitched ← Record.defaulted? Sample.unset.pitched Json.bool? pitched
      let basePitch ← Record.defaulted? Sample.unset.basePitch Json.double? basePitch
      return ⟨file, pitched, basePitch⟩
  | _ => none

/-- A sample as it is written. -/
def writeSample (sample : Sample) : Json :=
  .record
    [("file", .string sample.file),
      ("pitched", .bool sample.pitched),
      ("base_pitch", .ofBinary .double sample.basePitch)]

/-- A place is a list of exactly two numbers. -/
def readPosition? : Json → Option Position
  | .list [x, y] => do
      let x ← x.single32?
      let y ← y.single32?
      return ⟨x, y⟩
  | _ => none

/-- A place as it is written. -/
def writePosition (position : Position) : Json :=
  .list [.ofBinary .single position.x, .ofBinary .single position.y]

/-- One dial value with its name. -/
def readDialValue? : Option String × Json → Option (String × Double)
  | (some name, value) => do
      let value ← value.double?
      return (name, value)
  | _ => none

/-- The dial values of an object. -/
def readDials? : Json → Option DialValues
  | .object fields => (fields.mapM readDialValue?).map DialValues.ofList
  | _ => none

/-- Dial values as they are written. -/
def writeDials (dials : DialValues) : Json :=
  .record (dials.entries.map fun entry => (entry.1, .ofBinary .double entry.2))

/-- The node that a record spells. -/
def readNode? (value : Json) : Option FileNode := do
  match ← value.slots? ["kind", "position", "dials", "sample"] with
  | [kind, position, dials, sample] =>
      let kind ← Record.required? Json.string? kind
      let position ← Record.defaulted? Position.origin readPosition? position
      let dials ← Record.defaulted? DialValues.empty readDials? dials
      let sample ← Json.optional? readSample? sample
      return ⟨kind, position, dials, sample⟩
  | _ => none

/-- A node as it is written. -/
def writeNode (node : FileNode) : Json :=
  .record
    (Record.present
      [("kind", some (.string node.kind)),
        ("position", some (writePosition node.position)),
        ("dials", some (writeDials node.dials)),
        ("sample", node.sample.map writeSample)])

/-- The connection that a record spells. -/
def readConnection? (value : Json) : Option FileConnection := do
  match ← value.slots? ["from_node", "from_socket", "to_node", "to_socket"] with
  | [fromNode, fromSocket, toNode, toSocket] =>
      let fromNode ← Record.required? Json.uint64? fromNode
      let fromSocket ← Record.required? Json.string? fromSocket
      let toNode ← Record.required? Json.uint64? toNode
      let toSocket ← Record.required? Json.string? toSocket
      return ⟨fromNode, fromSocket, toNode, toSocket⟩
  | _ => none

/-- A connection as it is written. -/
def writeConnection (connection : FileConnection) : Json :=
  .record
    [("from_node", .natural connection.fromNode.toNat),
      ("from_socket", .string connection.fromSocket),
      ("to_node", .natural connection.toNode.toNat),
      ("to_socket", .string connection.toSocket)]

/-- The kind of graph that a word names. -/
def kindOfName? (name : String) : Option GraphKind :=
  [GraphKind.instrument, GraphKind.sequence].find? (·.name = name)

/-- A kind of graph is its name, or an object with the name as its only field and no value. -/
def readKind? : Json → Option GraphKind
  | .text (some name) => kindOfName? name
  | .object [(some name, .null)] => kindOfName? name
  | _ => none

/-- The file that a record spells. -/
def ofJson? (value : Json) : Option GraphFile := do
  let names := ["name", "version", "kind", "bank_index", "channel", "nodes", "connections"]
  match ← value.slots? names with
  | [name, version, kind, bankIndex, channel, nodes, connections] =>
      let name ← Json.optional? Json.string? name
      let version ← Record.required? Json.uint32? version
      let kind ← Record.required? readKind? kind
      let bankIndex ← Json.optional? Json.uint32? bankIndex
      let channel ← Json.optional? Json.uint8? channel
      let nodes ← Record.required? (Json.listOf? readNode?) nodes
      let connections ← Record.required? (Json.listOf? readConnection?) connections
      return ⟨name, version, kind, bankIndex, channel, nodes, connections⟩
  | _ => none

/-- A file as it is written. -/
def toJson (file : GraphFile) : Json :=
  .record
    (Record.present
      [("name", file.name.map Json.string),
        ("version", some (.natural file.version.toNat)),
        ("kind", some (.string file.kind.name)),
        ("bank_index", file.bankIndex.map fun index => .natural index.toNat),
        ("channel", file.channel.map fun channel => .natural channel.toNat),
        ("nodes", some (.list (file.nodes.map writeNode))),
        ("connections", some (.list (file.connections.map writeConnection)))])

/-- The text of a file. -/
def text (file : GraphFile) : String :=
  file.toJson.prettyText

/-- Why a file cannot be loaded. -/
inductive LoadError where
  /-- There is no file to read. -/
  | missing
  /-- The bytes of the file are not a text. -/
  | notText
  /-- The text does not spell a graph file. -/
  | malformed
  /-- The file was written in a later version of the format. -/
  | incompatible (found : UInt32)
  deriving Repr, DecidableEq

/-- The account of a failure to load; a malformed text has none. -/
def LoadError.message? : LoadError → Option String
  | missing => some "file error: No such file or directory (os error 2)"
  | notText => some "file error: stream did not contain valid UTF-8"
  | malformed => none
  | incompatible found =>
      some ("incompatible file version: found " ++ toString found.toNat
        ++ ", expected <= " ++ toString latestVersion.toNat)

/-- The file that a text spells, if its version is known. -/
def ofText (text : String) : Except LoadError GraphFile :=
  match (Json.read? text).bind ofJson? with
  | none => .error .malformed
  | some file => if file.isCompatible then .ok file else .error (.incompatible file.version)

/-- The file in some bytes. -/
def ofBytes (bytes : ByteArray) : Except LoadError GraphFile :=
  match String.fromUTF8? bytes with
  | none => .error .notText
  | some text => ofText text

/-- Load a file from what was read, if anything could be read. -/
def load : Option ByteArray → Except LoadError GraphFile
  | none => .error .missing
  | some bytes => ofBytes bytes

end GraphFile

end SynthGraph
