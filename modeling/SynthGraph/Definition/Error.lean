import SynthGraph.Document
import SynthGraph.Graph.Connection

namespace SynthGraph

/-!
# Why a definition or a graph file is refused
-/

/-- The two kinds of graphs. -/
inductive GraphKind where
  | instrument
  | sequence
  deriving Repr, DecidableEq

/-- The name of a kind of graph. -/
def GraphKind.name : GraphKind → String
  | .instrument => "instrument"
  | .sequence => "sequence"

/-- Why a definition or a graph file does not describe a graph. -/
inductive DefinitionError where
  /-- The document has no key that defines a sound. -/
  | unknownDefinition (document : Document)
  /-- The body of a filter has no key of a mode. -/
  | unknownFilter (body : Document)
  /-- No unit of the kind is registered. -/
  | unknownKind (kind : String)
  /-- Two sockets cannot be connected. -/
  | invalidConnection (source target : String) (cause : ConnectionError)
  /-- Two sockets are connected a second time. -/
  | duplicateConnection (source target : String)
  /-- The file holds the other kind of graph. -/
  | kindMismatch (expected found : GraphKind)
  /-- A connection names a node that is not there. -/
  | missingNode (index : UInt64)
  deriving Repr

namespace DefinitionError

/-- The account of a refusal. -/
def message : DefinitionError → String
  | unknownDefinition document =>
      "unknown instrument definition: " ++ document.compactText
  | unknownFilter body =>
      "unknown filter definition: " ++ body.compactText
  | unknownKind kind =>
      "unknown unit kind: " ++ kind
  | invalidConnection source target cause =>
      "invalid connection " ++ source ++ " → " ++ target ++ ": " ++ cause.message
  | duplicateConnection source target =>
      "duplicate connection " ++ source ++ " → " ++ target
  | kindMismatch expected found =>
      "file holds a " ++ found.name ++ " graph, expected " ++ expected.name
  | missingNode index =>
      "connection refers to missing node " ++ toString index.toNat

end DefinitionError

end SynthGraph
