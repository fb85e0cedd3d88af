import SynthGraph.CommandLine.Arguments
import SynthGraph.CommandLine.Listing
import SynthGraph.GraphFile.Text
import SynthGraph.Session.Basic

namespace SynthGraph

/-!
# Commands

A command is a function of its arguments and of the contents of the files it
names.  It prints a document, or fails for one of the causes listed here.
-/

/-- The contents of files by name; a file that cannot be read has none. -/
abbrev Files := String → Option ByteArray

/-- Why a command fails. -/
inductive CommandError where
  | unreadable (file : String)
  | invalidDocument (file : String)
  | unloadable (file : String)
  | notChannels
  | notSequences
  | definition (cause : DefinitionError)
  deriving Repr

namespace CommandError

/-- The account of a failure. -/
def message : CommandError → String
  | unreadable file => "Failed to read " ++ file
  | invalidDocument file => "Invalid JSON in " ++ file
  | unloadable file => "Failed to load graph " ++ file
  | notChannels => "Expected a list of channel definitions"
  | notSequences => "Expected a list of sequence definitions"
  | definition cause => cause.message

end CommandError

/-- What running the program comes to. -/
inductive Outcome where
  /-- Text for the standard output. -/
  | printed (text : String)
  /-- The command fails. -/
  | failed (cause : CommandError)
  /-- The command line is not understood. -/
  | refused
  deriving Repr

namespace Command

/-- The files that a command reads. -/
def files : Command → List String
  | instrument file => [file]
  | graph file _ _ => [file]
  | session file _ _ sequences => file :: sequences.toList
  | units => []

/-- A definition error as the failure of a command. -/
def lift {α : Type} : Except DefinitionError α → Except CommandError α
  | .ok value => .ok value
  | .error cause => .error (.definition cause)

/-- The document in a file. -/
def readDocument (files : Files) (file : String) : Except CommandError Document :=
  match (files file).bind String.fromUTF8? with
  | none => .error (.unreadable file)
  | some text =>
      match Document.read? text with
      | none => .error (.invalidDocument file)
      | some document => .ok document

/-- Load an instrument definition and compile it; silence is null. -/
def compileInstrument (files : Files) (file : String) : Except CommandError Document := do
  let document ← readDocument files file
  let instrument ← lift (Instrument.ofDocument document)
  return instrument.compile?.getD .null

/-- Compile a graph file, as a sequence if it says so or is asked to be one. -/
def compileGraph
    (files : Files)
    (file : String)
    (asSequence : Bool)
    (channel : Option UInt8) :
    Except CommandError Document :=
  match GraphFile.load (files file) with
  | .error _ => .error (.unloadable file)
  | .ok loaded =>
      if asSequence ∨ loaded.kind = .sequence then do
        let sequence ← lift loaded.toSequence
        let played := { sequence with channel := channel.getD sequence.channel }
        return .list played.compile
      else do
        let instrument ← lift loaded.toInstrument
        return instrument.compile?.getD .null

/-- Route the definitions of a file to the channels of a session. -/
def assignFile (files : Files) (session : Session) (file : String) :
    Except CommandError Session := do
  let document ← readDocument files file
  match document.items? with
  | none => .error .notSequences
  | some definitions => .ok (session.assign definitions).2

/-- Assemble a session from channel settings and compile it. -/
def compileSession
    (files : Files)
    (file : String)
    (bpm : Option Double)
    (granularity : Option UInt32)
    (sequences : Option String) :
    Except CommandError Document := do
  let document ← readDocument files file
  match ChannelSettings.listOfDocument? document with
  | none => .error .notChannels
  | some settings =>
      let plain ← lift (Session.ofSettings settings)
      let timed :=
        { plain with
          bpm := bpm.getD plain.bpm
          granularity := granularity.getD plain.granularity }
      match sequences with
      | none => return timed.compile
      | some sequencesFile =>
          let assigned ← assignFile files timed sequencesFile
          return assigned.compile

/-- A document as it is printed. -/
def render (compact : Bool) (document : Document) : String :=
  if compact then document.compactText else document.prettyText

/-- The text that a command prints, without its last line break. -/
def output (files : Files) (compact : Bool) : Command → Except CommandError String
  | instrument file => render compact <$> compileInstrument files file
  | graph file asSequence channel =>
      render compact <$> compileGraph files file asSequence channel
  | session file bpm granularity sequences =>
      render compact <$> compileSession files file bpm granularity sequences
  | units => .ok ("\n".intercalate Listing.lines)

end Command

namespace CommandLine

/-- What the program is called and which version it has. -/
def versionText : String := "patchbay 0.1.0"

/-- The files that arguments ask to be read. -/
def files (arguments : List String) : List String :=
  match Arguments.request? arguments with
  | some (.run _ command) => command.files
  | _ => []

/-- Run the program on arguments and files. -/
def run (files : Files) (arguments : List String) : Outcome :=
  match Arguments.request? arguments with
  | none => .refused
  | some .version => .printed (versionText ++ "\n")
  | some (.run compact command) =>
      match command.output files compact with
      | .ok text => .printed (text ++ "\n")
      | .error cause => .failed cause

end CommandLine

end SynthGraph
