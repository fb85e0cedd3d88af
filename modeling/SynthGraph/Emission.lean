import SynthGraph.Document

namespace SynthGraph

/-!
# Emissions

Compiling a unit turns the emissions that arrive at its input sockets into one
emission of its own.
-/

/-- What a unit contributes to a compiled graph. -/
inductive Emission where
  /-- The unit adds nothing. -/
  | nothing
  /-- A document that describes the unit and what feeds it. -/
  | document (content : Document)
  /-- A wrapper for the document of a later unit. -/
  | transform (apply : Document → Document)
  /-- Finished documents of a last unit. -/
  | events (documents : List Document)

namespace Emission

/-- The document of an emission that is one. -/
def document? : Emission → Option Document
  | document content => some content
  | _ => none

/-- The wrapper of an emission that is one. -/
def transform? : Emission → Option (Document → Document)
  | transform apply => some apply
  | _ => none

/-- The finished documents of an emission. -/
def finished : Emission → List Document
  | events documents => documents
  | _ => []

/-- The emission of an optional document. -/
def ofDocument? : Option Document → Emission
  | some content => document content
  | none => nothing

end Emission

/-- Several documents in one, in order. -/
def Document.combined (documents : List Document) : Document :=
  .object [("combined", .list documents)]

/-- No document, the only document, or several combined. -/
def Document.resolve? : List Document → Option Document
  | [] => none
  | [document] => some document
  | documents => some (Document.combined documents)

/-- The emissions that arrive at each socket; a socket without patches is absent. -/
structure Connections where
  inputs : List (String × List Emission)

namespace Connections

/-- No socket is connected. -/
def empty : Connections :=
  ⟨[]⟩

/-- Give a socket its emissions in a list of inputs. -/
def insertInto
    (socket : String)
    (emissions : List Emission) :
    List (String × List Emission) → List (String × List Emission)
  | [] => [(socket, emissions)]
  | (other, present) :: rest =>
      if other = socket then
        (other, emissions) :: rest
      else
        (other, present) :: insertInto socket emissions rest

/-- Give a socket its emissions, in place of earlier ones. -/
def insert
    (connections : Connections)
    (socket : String)
    (emissions : List Emission) :
    Connections :=
  ⟨insertInto socket emissions connections.inputs⟩

/-- The emissions that arrive at a socket. -/
def get (connections : Connections) (socket : String) : List Emission :=
  match connections.inputs.find? (·.1 = socket) with
  | some input => input.2
  | none => []

/-- Whether anything is patched into a socket, even what contributes nothing. -/
def isConnected (connections : Connections) (socket : String) : Bool :=
  !(connections.get socket).isEmpty

/-- The documents that arrive at a socket. -/
def documents (connections : Connections) (socket : String) : List Document :=
  (connections.get socket).filterMap Emission.document?

/-- The wrappers that arrive at a socket. -/
def transforms
    (connections : Connections)
    (socket : String) :
    List (Document → Document) :=
  (connections.get socket).filterMap Emission.transform?

/-- The documents that arrive at a socket, as one. -/
def resolve? (connections : Connections) (socket : String) : Option Document :=
  Document.resolve? (connections.documents socket)

end Connections

end SynthGraph
