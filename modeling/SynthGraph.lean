import SynthGraph.Main
import SynthGraph.Proofs.Graph.Run
import SynthGraph.Proofs.Graph.WellPatched
import SynthGraph.Proofs.Graph.Discovery
import SynthGraph.Proofs.Graph.Countdown
import SynthGraph.Proofs.Graph.CompileOrder
import SynthGraph.Proofs.Graph.Cycles
import SynthGraph.Proofs.Graph.Producers
import SynthGraph.Proofs.Graph.Arrivals
import SynthGraph.Proofs.Graph.Meaning
import SynthGraph.Proofs.Number.ReadBack
import SynthGraph.Proofs.Definition.Layout
import SynthGraph.Proofs.Graph.Numbering
import SynthGraph.Proofs.Definition.Expansion
import SynthGraph.Proofs.Definition.Placement
import SynthGraph.Proofs.Definition.Compilation
import SynthGraph.Proofs.Definition.Rewriting
import SynthGraph.Proofs.Definition.Keys
import SynthGraph.Proofs.Definition.Unpitched
import SynthGraph.Proofs.Definition.Emitted
import SynthGraph.Proofs.Graph.Renumbering
import SynthGraph.Proofs.Unit.Catalog
import SynthGraph.Proofs.Graph.Compacting
import SynthGraph.Proofs.GraphFile.Capture
import SynthGraph.Proofs.GraphFile.Editing
import SynthGraph.Proofs.GraphFile.RoundTrip
import SynthGraph.Proofs.GraphFile.Legality
import SynthGraph.Proofs.GraphFile.Rebuilding
import SynthGraph.Proofs.Definition.Reloading
import SynthGraph.Proofs.Session.Leaves
import SynthGraph.Proofs.Session.Delivery
import SynthGraph.Proofs.Graph.Locality
import SynthGraph.Proofs.Graph.Steps
import SynthGraph.Proofs.Graph.Shape
import SynthGraph.Proofs.Graph.Sparing
import SynthGraph.Proofs.Instrument.Shape
import SynthGraph.Proofs.Graph.Carrying
import SynthGraph.Proofs.Graph.Sinks
import SynthGraph.Proofs.Sequence.Notes
import SynthGraph.Proofs.Document.Alike
import SynthGraph.Proofs.Instrument.Repatching
import SynthGraph.Proofs.Graph.Toggling
import SynthGraph.Proofs.Graph.Searching
import SynthGraph.Proofs.Graph.Identity
import SynthGraph.Proofs.Session.Rerouting
import SynthGraph.Proofs.Document.Grammar
import SynthGraph.Proofs.Instrument.Grammar
import SynthGraph.Proofs.Graph.Objections
import SynthGraph.Proofs.Graph.Turning
import SynthGraph.Proofs.Json.Tokens
import SynthGraph.Proofs.Json.ReadBack
import SynthGraph.Proofs.GraphFile.Loading
import SynthGraph.Proofs.Number.Legible
import SynthGraph.Proofs.GraphFile.Saving
import SynthGraph.Proofs.Graph.Precedence
import SynthGraph.Proofs.Instrument.Parts
import SynthGraph.Proofs.Instrument.FixedPitch
import SynthGraph.Proofs.Definition.Forms
import SynthGraph.Proofs.Definition.Offences
import SynthGraph.Proofs.Definition.Nodes
import SynthGraph.Proofs.Definition.Wired
import SynthGraph.Proofs.Graph.BreadthFirst
import SynthGraph.Proofs.Graph.PlainOrder
import SynthGraph.Proofs.Definition.Bare
import SynthGraph.Proofs.Graph.Audio
import SynthGraph.Proofs.Instrument.Rereading
import SynthGraph.Proofs.Document.Nesting
import SynthGraph.Proofs.Graph.PatchPaths
import SynthGraph.Proofs.Instrument.Layers
import SynthGraph.Proofs.Instrument.Nesting
import SynthGraph.Proofs.Document.Records
import SynthGraph.Proofs.Graph.FirstMet
import SynthGraph.Proofs.Sequence.Automation
import SynthGraph.Proofs.GraphFile.Rekinding
import SynthGraph.Proofs.CommandLine.SequenceFlag
import SynthGraph.Proofs.Document.Kept
import SynthGraph.Proofs.Session.Rereading
import SynthGraph.Proofs.Session.Actions
import SynthGraph.Proofs.Session.Assembly
import SynthGraph.Proofs.Graph.Counters
import SynthGraph.Proofs.Graph.Lookups
