import SynthGraph.CommandLine.Basic
import SynthGraph.Proofs.GraphFile.Rebuilding
import SynthGraph.Proofs.GraphFile.Rekinding

namespace SynthGraph

/-!
# The flag that asks for a sequence

A graph file that says it holds a sequence is compiled as one, with the flag or
without it.  A file that says it holds an instrument is turned down with the
flag, whatever its nodes are, although the same file under the other kind may
well be compiled (`CommandLine.run_asSequence`).
-/

namespace GraphFile

/-- A file that holds an instrument is turned down as a sequence. -/
theorem toSequence_of_instrument
    {file : GraphFile}
    (isInstrument : file.kind = .instrument) :
    file.toSequence = .error (.kindMismatch .sequence .instrument) := by
  simp only [toSequence, expectKind, isInstrument]
  rfl

/-- A file that holds a sequence is never turned down for its kind. -/
theorem toSequence_ne_kindMismatch
    {file : GraphFile}
    (isSequence : file.kind = .sequence)
    (expected found : GraphKind) :
    file.toSequence ≠ .error (.kindMismatch expected found) := by
  intro isRefused
  have settles :
      Settles SequenceUnit.registry (fun _ unit => unit) .sequence file
        (fun graph => (⟨file.channel.getD Sequence.defaultChannel, graph⟩ : Sequence))
        file.toSequence :=
    settles_outcome .sequence file _
  cases (settles.refused_iff _).mp isRefused with
  | kind other => exact other isSequence
  | connection _ _ _ _ fault => cases fault

end GraphFile

namespace Command

variable
  {files : Files}
  {file : String}
  {loaded : GraphFile}
  {asSequence : Bool}
  {channel : Option UInt8}

/-- What is compiled as a sequence is the sequence in the file, on the channel that is asked for. -/
theorem compileGraph_of_played
    (isLoaded : GraphFile.load (files file) = .ok loaded)
    (isPlayed : asSequence ∨ loaded.kind = .sequence) :
    compileGraph files file asSequence channel =
      (lift loaded.toSequence).map fun sequence =>
        .list { sequence with channel := channel.getD sequence.channel }.compile := by
  rw [compileGraph, isLoaded]
  simp only [if_pos isPlayed]
  cases loaded.toSequence <;> rfl

end Command

namespace CommandLine

section Flag

variable
  {files others : Files}
  {arguments plain : List String}
  {compact asSequence : Bool}
  {file : String}
  {channel : Option UInt8}
  {loaded : GraphFile}

/-- Running a command on a file that is compiled as a sequence. -/
theorem run_of_played
    (asked : Arguments.request? arguments = some (.run compact (.graph file asSequence channel)))
    (isLoaded : GraphFile.load (files file) = .ok loaded)
    (isPlayed : asSequence ∨ loaded.kind = .sequence) :
    run files arguments =
      match loaded.toSequence with
      | .ok sequence =>
          .printed
            (Command.render compact
              (.list { sequence with channel := channel.getD sequence.channel }.compile) ++ "\n")
      | .error cause => .failed (.definition cause) := by
  simp only [run, asked, Command.output, Command.compileGraph_of_played isLoaded isPlayed]
  cases loaded.toSequence <;> rfl

/--
With the flag a file and the same file under the kind of a sequence come to the
same thing exactly if the file is of that kind already.  An instrument is turned
down.
-/
theorem run_asSequence
    {contents replaced : ByteArray}
    (asked : Arguments.request? arguments = some (.run compact (.graph file true channel)))
    (askedPlain :
      Arguments.request? plain = some (.run compact (.graph file asSequence channel)))
    (found : files file = some contents)
    (isLoaded : GraphFile.load (some contents) = .ok loaded)
    (foundOther : others file = some replaced)
    (rekinded : GraphFile.Rekinded .sequence contents replaced) :
    (run files arguments = run others plain ↔ loaded.kind = .sequence) ∧
      (loaded.kind = .instrument →
        run files arguments = .failed (.definition (.kindMismatch .sequence .instrument))) := by
  have otherLoaded := rekinded.load isLoaded
  rw [← found] at isLoaded
  rw [← foundOther] at otherLoaded
  rw [run_of_played asked isLoaded (Or.inl rfl),
    run_of_played askedPlain otherLoaded (Or.inr rfl)]
  cases kind : loaded.kind with
  | sequence =>
      refine ⟨iff_of_true ?_ rfl, nofun⟩
      rw [← kind]
  | instrument =>
      rw [GraphFile.toSequence_of_instrument kind]
      refine ⟨iff_of_false ?_ nofun, fun _ => rfl⟩
      intro same
      have never :
          { loaded with kind := .sequence : GraphFile }.toSequence ≠
            .error (.kindMismatch .sequence .instrument) :=
        GraphFile.toSequence_ne_kindMismatch rfl .sequence .instrument
      cases isSequence : { loaded with kind := .sequence : GraphFile }.toSequence with
      | ok sequence =>
          rw [isSequence] at same
          cases same
      | error cause =>
          rw [isSequence] at same never
          cases same
          exact never rfl

end Flag

/-- A note that is played by a pulse, saved as a graph of a kind. -/
def beat (kind : GraphKind) : GraphFile :=
  { name := none
    version := 1
    kind := kind
    bankIndex := none
    channel := none
    nodes := [⟨"pulse", .origin, .empty, none⟩, ⟨"play_note", .origin, .empty, none⟩]
    connections := [⟨0, "TRIG", 1, "TRIG"⟩] }

/-- A place with nothing but the saved beat. -/
def beatFiles (kind : GraphKind) : Files :=
  fun file => if file = "beat.json" then some (beat kind).saved else none

theorem beatFiles_beat (kind : GraphKind) :
    beatFiles kind "beat.json" = some (beat kind).saved := by
  rw [beatFiles, if_pos rfl]

theorem load_beat (kind : GraphKind) :
    GraphFile.load (beatFiles kind "beat.json") = .ok (beat kind) := by
  have read : (beat kind).reread? = some (beat kind) := by
    cases kind <;> exact GraphFile.reread?_eq_some_self (by decide +kernel) (by decide +kernel)
  rw [beatFiles_beat, GraphFile.load_saved, read]
  rfl

theorem request?_beat :
    Arguments.request? ["graph", "beat.json", "--channel", "3"] =
        some (.run false (.graph "beat.json" false (some 3))) ∧
      Arguments.request? ["graph", "beat.json", "--sequence", "--channel", "3"] =
        some (.run false (.graph "beat.json" true (some 3))) := by
  decide +kernel

/-- With the flag the beat is played if it is saved as a sequence, and turned down if not. -/
theorem run_asSequence_beat :
    run (beatFiles .sequence) ["graph", "beat.json", "--sequence", "--channel", "3"] =
        run (beatFiles .sequence) ["graph", "beat.json", "--channel", "3"] ∧
      run (beatFiles .instrument) ["graph", "beat.json", "--sequence", "--channel", "3"] ≠
        run (beatFiles .sequence) ["graph", "beat.json", "--channel", "3"] := by
  have outcome (kind : GraphKind) :=
    run_asSequence request?_beat.2 request?_beat.1 (beatFiles_beat kind)
      ((beatFiles_beat kind) ▸ load_beat kind) (beatFiles_beat .sequence)
      ((beat kind).rekinded_saved .sequence)
  refine ⟨(outcome .sequence).1.mpr rfl, fun same => ?_⟩
  cases (outcome .instrument).1.mp same

/-- The flag is refused for a beat that is played once its kind is changed. -/
theorem refused_asSequence_beat :
    GraphFile.Rekinded .sequence (beat .instrument).saved (beat .sequence).saved ∧
      run (beatFiles .instrument) ["graph", "beat.json", "--sequence", "--channel", "3"] =
        .failed (.definition (.kindMismatch .sequence .instrument)) ∧
      ∃ text,
        run (beatFiles .sequence) ["graph", "beat.json", "--sequence", "--channel", "3"] =
          .printed text := by
  have played : (beat .sequence).toSequence.isOk = true := by
    decide +kernel
  refine ⟨(beat .instrument).rekinded_saved .sequence, ?_, ?_⟩
  · exact run_of_played request?_beat.2 (load_beat .instrument) (Or.inl rfl)
  · rw [run_of_played request?_beat.2 (load_beat .sequence) (Or.inl rfl)]
    cases isSequence : (beat .sequence).toSequence with
    | ok sequence => exact ⟨_, rfl⟩
    | error cause =>
        rw [isSequence] at played
        cases played

end CommandLine

end SynthGraph
