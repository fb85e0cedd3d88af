import SynthGraph.Definition.Basic
import SynthGraph.Instrument

namespace SynthGraph

/-!
# From definitions to instruments

A definition is expanded from the outside in.  Every sound is given the module
its pitch derives from and the module its audio goes to; what it hands back are
the sound sources it placed, so that an outer transpose or panning can reach
them.  Sound sources without a pitch follow the played note in the end.
-/

/-- Connect two sockets, or tell which connection is refused. -/
def Graph.patch
    (graph : Graph InstrumentUnit)
    (source target : Endpoint) :
    Except DefinitionError (Graph InstrumentUnit) :=
  match graph.connect source target with
  | .ok (_, patched) => .ok patched
  | .error cause => .error (.invalidConnection source.label target.label cause)

namespace Definition

/-- A graph under construction. -/
abbrev Draft := Graph InstrumentUnit

/-- Lead a panning to the place of every sound source. -/
def spread (panning : ModuleId) (draft : Draft) (generators : List ModuleId) :
    Except DefinitionError Draft :=
  generators.foldlM
    (fun draft generator => draft.patch ⟨panning, "PAN"⟩ ⟨generator, "PAN"⟩)
    draft

/-- Lead a pitch to every sound source that has none yet. -/
def tune (pitch : ModuleId) (draft : Draft) (generators : List ModuleId) :
    Except DefinitionError Draft :=
  generators.foldlM
    (fun draft generator =>
      if draft.isConnected ⟨generator, "FREQ"⟩ then
        .ok draft
      else
        draft.patch ⟨pitch, "FREQ"⟩ ⟨generator, "FREQ"⟩)
    draft

mutual

/--
Place a definition whose pitch derives from `frequency` and whose audio goes to
`consumer`.  The sound sources it holds are handed back in order.
-/
def expand
    (frequency consumer : ModuleId)
    (draft : Draft) :
    Definition → Except DefinitionError (List ModuleId × Draft)
  | .combined parts => expandAll frequency consumer draft parts
  | .panning body => do
      let panning := draft.nextId
      let (generators, draft) ←
        body.expand frequency consumer (draft.add .panning .origin)
      let draft ← spread panning draft generators
      let draft ← draft.patch ⟨frequency, "FREQ"⟩ ⟨panning, "FREQ"⟩
      return (generators, draft)
  | .transpose dials body => do
      let transpose := draft.nextId
      let (generators, draft) ←
        body.expand transpose consumer (draft.add (.transpose dials) .origin)
      let draft ← tune transpose draft generators
      let draft ← draft.patch ⟨frequency, "FREQ"⟩ ⟨transpose, "FREQ IN"⟩
      return (generators, draft)
  | .generator unit => do
      let generator := draft.nextId
      let draft ← (draft.add unit .origin).patch ⟨generator, "OUT"⟩ ⟨consumer, "IN"⟩
      return ([generator], draft)
  | .omitted => .ok ([], draft)
  | .filter mode dials body => do
      let filter := draft.nextId
      let (generators, draft) ←
        body.expand frequency filter (draft.add (.filter mode dials) .origin)
      let draft ← draft.patch ⟨filter, "OUT"⟩ ⟨consumer, "IN"⟩
      return (generators, draft)

/-- Place several definitions one after the other. -/
def expandAll
    (frequency consumer : ModuleId)
    (draft : Draft) :
    List Definition → Except DefinitionError (List ModuleId × Draft)
  | [] => .ok ([], draft)
  | first :: rest => do
      let (generators, draft) ← first.expand frequency consumer draft
      let (others, draft) ← expandAll frequency consumer draft rest
      return (generators ++ others, draft)

end

/-- The sound sources of a graph. -/
def generators (draft : Draft) : List ModuleId :=
  (draft.modules.filter (·.unit.isGenerator)).map Module.id

/-- The graph of a definition, between the input and the output of an instrument. -/
def toGraph (definition : Definition) : Except DefinitionError Draft := do
  let (_, draft) ← definition.expand Instrument.inputId Instrument.outputId Instrument.new.graph
  tune Instrument.inputId draft (generators draft)

end Definition

/-- The instrument that a document defines, with its name and bank slot if it states them. -/
def Instrument.ofDocument (document : Document) : Except DefinitionError Instrument := do
  let definition ← Definition.ofDocument document
  let graph ← definition.toGraph
  .ok
    { name := (document.field? "name").bind Document.text?
      bankIndex := (document.field? "index").bind Document.uint32?
      graph := graph }

end SynthGraph
