import SynthGraph.Proofs.Graph.Sinks
import SynthGraph.Proofs.Graph.Steps
import SynthGraph.Proofs.GraphFile.RoundTrip

namespace SynthGraph

/-!
# What a sequence plays

Signals lead from the clock to pulses, and from pulses and ranges to notes, so no
sequence has a cycle.  It compiles to one document for every pulse of every note:
the notes against the order in which they were added, the pulses of a note in the
order in which they are discovered (`Sequence.Scored`).
-/

namespace SequenceUnit

/-- The dials of a pulse. -/
def pulse? : SequenceUnit → Option Dials
  | pulse dials => some dials
  | _ => none

/-- The document of a range. -/
def range? : SequenceUnit → Option Document
  | range walk dials => some (walk.compile dials)
  | _ => none

/-- How far a unit is from the clock at most. -/
def height : SequenceUnit → Nat
  | input => 0
  | pulse _ => 1
  | range _ _ => 1
  | playNote _ => 2

end SequenceUnit

namespace Graph

variable {graph : Graph SequenceUnit}

/-- The units that a patch may join, by its signal. -/
inductive JoinsUnits (patch : Patch) : SequenceUnit → SequenceUnit → Prop where
  | clock (dials : Dials) :
      patch.signal = .clock → patch.target.socket ≠ "TRIG" →
        JoinsUnits patch .input (.pulse dials)
  | trigger (dials note : Dials) :
      patch.signal = .trigger → patch.target.socket = "TRIG" →
        JoinsUnits patch (.pulse dials) (.playNote note)
  | integer (walk : RangeKind) (dials note : Dials) :
      patch.signal = .integer → patch.target.socket ≠ "TRIG" →
        JoinsUnits patch (.range walk dials) (.playNote note)

/-- Triggers are patched into the sockets of that name, which only notes have. -/
theorem JoinsUnits.trigger_iff
    {patch : Patch}
    {source target : SequenceUnit}
    (joins : JoinsUnits patch source target) :
    (patch.signal = .trigger ↔ patch.target.socket = "TRIG") ∧
      (patch.target.socket = "TRIG" →
        ∃ pulse note, source = .pulse pulse ∧ target = .playNote note) := by
  cases joins with
  | clock dials isClock notTrigger =>
      simp [isClock, notTrigger]
  | trigger dials note isTrigger isTarget =>
      simp [isTrigger, isTarget]
  | integer walk dials note isInteger notTrigger =>
      simp [isInteger, notTrigger]

/-- The signal of a patch tells which units it joins. -/
theorem WellPatched.joinsUnits
    (wellPatched : graph.WellPatched)
    {patch : Patch}
    (member : patch ∈ graph.patches) :
    ∃ source target,
      graph.unit? patch.source.module = some source ∧
        graph.unit? patch.target.module = some target ∧
        JoinsUnits patch source target := by
  obtain ⟨source, sourceFound, isOutput⟩ := wellPatched.source_output patch member
  obtain ⟨target, targetFound, isInput⟩ := wellPatched.target_input patch member
  refine ⟨source, target, sourceFound, targetFound, ?_⟩
  have output := (UnitLike.socket?_some isOutput).1
  have input := (UnitLike.socket?_some isInput).1
  simp only [UnitLike.sockets] at output input
  cases source with
  | input =>
      obtain ⟨_, isClock⟩ : patch.source.socket = "CLOCK" ∧ patch.signal = .clock := by
        simpa [SequenceUnit.sockets, Socket.output] using output
      cases target with
      | pulse dials =>
          have notTrigger : patch.target.socket ≠ "TRIG" := by
            intro isTrigger
            simp [SequenceUnit.sockets, Socket.input, Socket.output, isClock, isTrigger] at input
          exact .clock dials isClock notTrigger
      | input | range | playNote =>
          simp [SequenceUnit.sockets, Socket.input, Socket.output, isClock] at input
  | pulse dials =>
      obtain ⟨_, isTrigger⟩ : patch.source.socket = "TRIG" ∧ patch.signal = .trigger := by
        simpa [SequenceUnit.sockets, Socket.input, Socket.output] using output
      cases target with
      | playNote note =>
          have isTarget : patch.target.socket = "TRIG" := by
            simpa [SequenceUnit.sockets, Socket.input, isTrigger] using input
          exact .trigger dials note isTrigger isTarget
      | input | pulse | range =>
          simp [SequenceUnit.sockets, Socket.input, Socket.output, isTrigger] at input
  | range walk dials =>
      obtain ⟨_, isInteger⟩ : patch.source.socket = "OUT" ∧ patch.signal = .integer := by
        simpa [SequenceUnit.sockets, Socket.input, Socket.output] using output
      cases target with
      | playNote note =>
          have notTrigger : patch.target.socket ≠ "TRIG" := by
            intro isTrigger
            simp [SequenceUnit.sockets, Socket.input, isInteger, isTrigger] at input
          exact .integer walk dials note isInteger notTrigger
      | input | pulse | range =>
          simp [SequenceUnit.sockets, Socket.input, Socket.output, isInteger] at input
  | playNote =>
      simp [SequenceUnit.sockets, Socket.input] at output

/-- No sequence has a cycle. -/
theorem WellPatched.wellFounded_sequence
    (wellPatched : graph.WellPatched) :
    WellFounded graph.Feeds := by
  let height : ModuleId → Nat := fun id => ((graph.unit? id).map SequenceUnit.height).getD 0
  apply wellFounded_feeds height
  intro patch member
  obtain ⟨source, target, sourceFound, targetFound, joins⟩ := wellPatched.joinsUnits member
  simp only [height, sourceFound, targetFound]
  cases joins <;> exact Nat.lt_succ_self _

/-- Notes feed nothing. -/
theorem WellPatched.note_feeds_nothing
    (wellPatched : graph.WellPatched)
    {id : ModuleId}
    {dials : Dials}
    (isNote : graph.unit? id = some (.playNote dials))
    (consumer : ModuleId) :
    ¬ graph.Feeds id consumer := by
  rintro ⟨patch, member, rfl, _⟩
  obtain ⟨source, _, sourceFound, _, joins⟩ := wellPatched.joinsUnits member
  rw [isNote, Option.some.injEq] at sourceFound
  subst sourceFound
  cases joins

end Graph

/-- Elements that are mapped to nothing may be left out. -/
theorem flatMap_filter_of_nil
    {α β : Type}
    {items : List α}
    {keeps : α → Bool}
    {parts : α → List β}
    (nothing : ∀ item ∈ items, ¬ keeps item → parts item = []) :
    (items.filter keeps).flatMap parts = items.flatMap parts := by
  induction items with
  | nil =>
      rfl
  | cons item rest inductionHypothesis =>
      have later := inductionHypothesis fun other member =>
        nothing other (List.mem_cons_of_mem item member)
      by_cases kept : keeps item
      · rw [List.filter_cons_of_pos kept, List.flatMap_cons, List.flatMap_cons, later]
      · rw [List.filter_cons_of_neg kept, List.flatMap_cons, nothing item List.mem_cons_self kept,
          later, List.nil_append]

namespace Sequence

/-- The units patched into a socket, in the order in which they are discovered. -/
def unitsInto (sequence : Sequence) (endpoint : Endpoint) : List SequenceUnit :=
  ((sequence.graph.discover sequence.sinks).filter
    (· ∈ sequence.graph.producersInto endpoint)).filterMap sequence.graph.unit?

/-- The pulses patched into a socket. -/
def pulsesInto (sequence : Sequence) (endpoint : Endpoint) : List Dials :=
  (sequence.unitsInto endpoint).filterMap SequenceUnit.pulse?

/-- The field of a note that follows the first range patched into a socket, if there is one. -/
def followed
    (sequence : Sequence)
    (endpoint : Endpoint)
    (automaticId id : String)
    (value : Double) :
    String × Document :=
  match ((sequence.unitsInto endpoint).filterMap SequenceUnit.range?).head? with
  | some range => (automaticId, range)
  | none => (id, .number value)

/-- The document of a note for one of its pulses. -/
def played (sequence : Sequence) (note : ModuleId) (dials pulse : Dials) : Document :=
  .record
    [("repeat", .record
      [("every", .number (Dials.value pulse "every")),
        ("play_note", .record
          [("duration", .number (Dials.value dials "duration")),
            ("channel", .natural sequence.channel.toNat),
            sequence.followed ⟨note, "NOTE"⟩ "auto_note" "note" (Dials.value dials "note"),
            sequence.followed ⟨note, "VEL"⟩ "auto_velocity" "velocity"
              (Dials.value dials "velocity")])])]

/-- The documents of a module: one for every pulse, if it is a note. -/
def notes (sequence : Sequence) (module : Module SequenceUnit) : List Document :=
  match module.unit with
  | .playNote dials =>
      (sequence.pulsesInto ⟨module.id, "TRIG"⟩).map (sequence.played module.id dials)
  | _ => []

/-- The documents of all notes, the note that was added last first. -/
def score (sequence : Sequence) : List Document :=
  sequence.graph.modules.reverse.flatMap sequence.notes

section Compiling

variable
  {sequence : Sequence}
  (wellPatched : sequence.graph.WellPatched)
  (numbered : sequence.graph.Numbered)

theorem acyclicBehind_sinks
    (wellPatched : sequence.graph.WellPatched) :
    sequence.graph.AcyclicBehind sequence.sinks :=
  Graph.acyclicBehind_of_wellFounded wellPatched.wellFounded_sequence _

theorem mem_sinks
    {id : ModuleId} :
    id ∈ sequence.sinks ↔
      ∃ module ∈ sequence.graph.modules, module.unit.isSink ∧ module.id = id := by
  simp [sinks, and_assoc]

theorem mem_sinks_of_unit?
    {id : ModuleId}
    {dials : Dials}
    (isNote : sequence.graph.unit? id = some (.playNote dials)) :
    id ∈ sequence.sinks := by
  obtain ⟨module, isModule, isUnit⟩ := Option.map_eq_some_iff.mp isNote
  obtain ⟨member, sameId⟩ := Graph.module?_some isModule
  exact mem_sinks.mpr ⟨module, member, by rw [isUnit, SequenceUnit.isSink], sameId⟩

section Sinks

include numbered

theorem unit?_of_mem_sinks
    {id : ModuleId}
    (isSink : id ∈ sequence.sinks) :
    ∃ dials, sequence.graph.unit? id = some (.playNote dials) := by
  obtain ⟨module, member, isNote, rfl⟩ := mem_sinks.mp isSink
  have found := numbered.unit?_of_mem member
  cases isUnit : module.unit with
  | playNote dials =>
      exact ⟨dials, by rw [found, isUnit]⟩
  | input | pulse | range =>
      simp [isUnit, SequenceUnit.isSink] at isNote

theorem live_sinks : ∀ sink ∈ sequence.sinks, (sequence.graph.module? sink).isSome := by
  intro sink isSink
  obtain ⟨dials, found⟩ := unit?_of_mem_sinks numbered isSink
  obtain ⟨module, isModule, _⟩ := Option.map_eq_some_iff.mp found
  simp [isModule]

theorem nodup_sinks : sequence.sinks.Nodup := by
  have idsNodup : (sequence.graph.modules.map Module.id).Nodup :=
    List.pairwise_map.mpr (numbered.increasing.imp Nat.ne_of_lt)
  exact idsNodup.sublist ((List.filter_sublist).map Module.id)

end Sinks

/-- A note in a pulse, written as one record. -/
theorem wrap_note
    (pulse : Dials)
    (fields : List (String × Document)) :
    Pulse.wrap pulse (.keyed PlayNote.kind (Entries.ofList fields)) =
      .record
        [("repeat", .record
          [("every", .number (Dials.value pulse "every")), ("play_note", .record fields)])] :=
  rfl

section Meanings

variable
  {meaning : ModuleId → Emission}
  (isMeaning :
    sequence.graph.IsMeaning sequence.channel (sequence.graph.discover sequence.sinks) meaning)
  {id : ModuleId}

include wellPatched isMeaning

/-- Of what arrives at a socket the units that are patched into it tell the form. -/
theorem filterMap_arriving
    {α : Type}
    {read : Emission → Option α}
    {readUnit : SequenceUnit → Option α}
    (reads :
      ∀ channel connections unit,
        read (SequenceUnit.compile channel connections unit) = readUnit unit)
    {unit : SequenceUnit}
    {socket : Socket}
    (isInput : socket ∈ UnitLike.inputs unit) :
    ((sequence.graph.gathered (sequence.graph.discover sequence.sinks) meaning id unit).get
        socket.name).filterMap read =
      (sequence.unitsInto ⟨id, socket.name⟩).filterMap readUnit := by
  rw [Graph.get_gathered _ _ _ _ isInput, unitsInto, List.filterMap_map, List.filterMap_filterMap]
  apply List.filterMap_congr
  intro producer member
  simp only [List.mem_filter, decide_eq_true_eq] at member
  obtain ⟨patch, isPatch, _, rfl⟩ := Graph.mem_producersInto.mp member.2
  obtain ⟨producer, found, _⟩ := wellPatched.source_output patch isPatch
  rw [Function.comp_apply, isMeaning.eq_compile wellPatched found, found, Option.bind_some]
  exact reads _ _ producer

/-- A note means one document for every pulse that is patched into it. -/
theorem finished_note
    {dials : Dials}
    (isNote : sequence.graph.unit? id = some (.playNote dials)) :
    (meaning id).finished =
      (sequence.pulsesInto ⟨id, "TRIG"⟩).map (sequence.played id dials) := by
  let arriving :=
    sequence.graph.gathered (sequence.graph.discover sequence.sinks) meaning id (.playNote dials)
  have triggers :
      arriving.transforms "TRIG" = (sequence.pulsesInto ⟨id, "TRIG"⟩).map Pulse.wrap := by
    have isInput : .input "TRIG" .trigger ∈ UnitLike.inputs (SequenceUnit.playNote dials) :=
      List.mem_cons_self
    rw [pulsesInto, List.map_filterMap]
    refine filterMap_arriving wellPatched isMeaning ?_ isInput
    intro channel connections unit
    cases unit <;> rfl
  have automation
      (socket automaticId field : String)
      (isSocket : .input socket .integer ∈ SequenceUnit.sockets (.playNote dials)) :
      PlayNote.automated dials field automaticId (arriving.documents socket).head? =
        sequence.followed ⟨id, socket⟩ automaticId field (Dials.value dials field) := by
    have isInput : .input socket .integer ∈ UnitLike.inputs (SequenceUnit.playNote dials) :=
      List.mem_filter.mpr ⟨isSocket, rfl⟩
    have ranges :
        arriving.documents socket =
          (sequence.unitsInto ⟨id, socket⟩).filterMap SequenceUnit.range? := by
      refine filterMap_arriving wellPatched isMeaning ?_ isInput
      intro channel connections unit
      cases unit <;> rfl
    rw [ranges, followed]
    cases ((sequence.unitsInto ⟨id, socket⟩).filterMap SequenceUnit.range?).head? <;> rfl
  have pitch := automation "NOTE" "auto_note" "note" (by simp [SequenceUnit.sockets])
  have velocity := automation "VEL" "auto_velocity" "velocity" (by simp [SequenceUnit.sockets])
  calc (meaning id).finished
      = PlayNote.compile dials sequence.channel arriving := by
        rw [isMeaning.eq_compile wellPatched isNote]
        rfl
    _ = (sequence.pulsesInto ⟨id, "TRIG"⟩).map fun pulse =>
          Pulse.wrap pulse (PlayNote.note dials sequence.channel arriving) := by
        rw [PlayNote.compile, triggers, List.map_map]
        rfl
    _ = (sequence.pulsesInto ⟨id, "TRIG"⟩).map (sequence.played id dials) := by
        apply List.map_congr_left
        intro pulse _
        rw [PlayNote.note, wrap_note, pitch, velocity, played]

end Meanings

include wellPatched numbered

/-- What is no note finishes nothing, so a sequence compiles to its notes, the last one first. -/
theorem compile_eq_flatMap
    {meaning : ModuleId → Emission}
    (isMeaning :
      sequence.graph.IsMeaning sequence.channel (sequence.graph.discover sequence.sinks) meaning) :
    sequence.compile = sequence.sinks.reverse.flatMap fun id => (meaning id).finished := by
  have acyclic := acyclicBehind_sinks wellPatched
  have silent :
      ∀ id ∈ (sequence.graph.schedule sequence.sinks).emission, id ∉ sequence.sinks →
        (meaning id).finished = [] := by
    intro id isScheduled notSink
    obtain ⟨unit, found⟩ := (Graph.mem_emission.mp isScheduled).unit?_isSome wellPatched
    rw [isMeaning.eq_compile wellPatched found]
    cases unit with
    | playNote dials =>
        exact absurd (mem_sinks_of_unit? found) notSink
    | input | pulse | range =>
        rfl
  have notesLast :=
    Graph.emission_filter_sinks (nodup_sinks numbered) (live_sinks numbered) acyclic
      fun sink isSink => by
        obtain ⟨dials, isNote⟩ := unit?_of_mem_sinks numbered isSink
        exact wellPatched.note_feeds_nothing isNote
  have reduced :=
    Graph.reduce_eq_map wellPatched sequence.channel sequence.sinks acyclic isMeaning
  rw [compile, reduced, List.flatMap_map, ← notesLast]
  refine (flatMap_filter_of_nil ?_).symm
  simpa using silent

/-- A sequence compiles to its score. -/
theorem compile_eq_score : sequence.compile = sequence.score := by
  obtain ⟨meaning, isMeaning⟩ :=
    Graph.exists_isMeaning wellPatched wellPatched.wellFounded_sequence sequence.channel
      (sequence.graph.discover sequence.sinks)
  have sameNotes :
      ∀ module ∈ sequence.graph.modules, module.unit.isSink →
        (meaning module.id).finished = sequence.notes module := by
    intro module member isNote
    have found := numbered.unit?_of_mem member
    cases isUnit : module.unit with
    | playNote dials =>
        rw [isUnit] at found
        rw [finished_note wellPatched isMeaning found, notes, isUnit]
    | input | pulse | range =>
        simp [isUnit, SequenceUnit.isSink] at isNote
  have onlyNotes :
      ∀ module ∈ sequence.graph.modules.reverse, ¬ module.unit.isSink →
        sequence.notes module = [] := by
    intro module _ notNote
    cases isUnit : module.unit with
    | playNote =>
        simp [isUnit, SequenceUnit.isSink] at notNote
    | input | pulse | range =>
        rw [notes, isUnit]
  rw [compile_eq_flatMap wellPatched numbered isMeaning, score, ← flatMap_filter_of_nil onlyNotes,
    sinks, ← List.map_reverse, List.flatMap_map, List.filter_reverse]
  apply List.flatMap_congr
  intro module member
  rw [List.mem_reverse, List.mem_filter] at member
  exact sameNotes module member.1 member.2

section Counting

omit numbered

/-- Into a note all pulses are patched through triggers, and nothing else is. -/
theorem length_pulsesInto
    {id : ModuleId}
    {dials : Dials}
    (isNote : sequence.graph.unit? id = some (.playNote dials)) :
    (sequence.pulsesInto ⟨id, "TRIG"⟩).length =
      sequence.graph.patches.countP (·.target = ⟨id, "TRIG"⟩) := by
  have acyclic := acyclicBehind_sinks wellPatched
  have reduces := Graph.reducesToMeaning_of_acyclic wellPatched sequence.channel acyclic
  have behind : sequence.graph.Behind sequence.sinks id := by
    obtain ⟨module, isModule, _⟩ := Option.map_eq_some_iff.mp isNote
    exact ⟨id, mem_sinks_of_unit? isNote, by rw [isModule]; rfl, .refl⟩
  have arePulses :
      ∀ producer ∈ (sequence.graph.discover sequence.sinks).filter
          (· ∈ sequence.graph.producersInto ⟨id, "TRIG"⟩),
        ((sequence.graph.unit? producer).bind SequenceUnit.pulse?).isSome := by
    intro producer member
    simp only [List.mem_filter, decide_eq_true_eq] at member
    obtain ⟨patch, isPatch, isTarget, rfl⟩ := Graph.mem_producersInto.mp member.2
    obtain ⟨source, _, sourceFound, _, joins⟩ := wellPatched.joinsUnits isPatch
    obtain ⟨pulse, _, rfl, _⟩ := joins.trigger_iff.2 (congrArg Endpoint.socket isTarget)
    rw [sourceFound]
    rfl
  calc (sequence.pulsesInto ⟨id, "TRIG"⟩).length
      = ((sequence.graph.discover sequence.sinks).filter
          (· ∈ sequence.graph.producersInto ⟨id, "TRIG"⟩)).length := by
        rw [pulsesInto, unitsInto, List.filterMap_filterMap, List.filterMap_length_eq_length]
        exact arePulses
    _ = (sequence.graph.producersInto ⟨id, "TRIG"⟩).length :=
        (reduces.producers_perm ⟨id, "TRIG"⟩ behind).length_eq
    _ = sequence.graph.patches.countP (·.target = ⟨id, "TRIG"⟩) := by
        rw [Graph.producersInto, List.length_map, List.countP_eq_length_filter]

end Counting

/-- A module contributes one document for every patch into its trigger. -/
theorem length_notes
    {module : Module SequenceUnit}
    (member : module ∈ sequence.graph.modules) :
    (sequence.notes module).length =
      sequence.graph.patches.countP (·.target = ⟨module.id, "TRIG"⟩) := by
  have found := numbered.unit?_of_mem member
  have noTrigger (notNote : ∀ dials, module.unit ≠ .playNote dials) :
      sequence.graph.patches.countP (·.target = ⟨module.id, "TRIG"⟩) = 0 := by
    rw [List.countP_eq_zero]
    intro patch isPatch isTarget
    rw [decide_eq_true_eq] at isTarget
    obtain ⟨_, target, _, targetFound, joins⟩ := wellPatched.joinsUnits isPatch
    obtain ⟨_, note, _, rfl⟩ := joins.trigger_iff.2 (congrArg Endpoint.socket isTarget)
    rw [isTarget, found, Option.some.injEq] at targetFound
    exact notNote note targetFound
  cases isUnit : module.unit with
  | playNote dials =>
      rw [isUnit] at found
      simp only [notes, isUnit, List.length_map, length_pulsesInto wellPatched found]
  | input | pulse | range =>
      rw [noTrigger (by simp [isUnit]), notes, isUnit]
      rfl

/-- Triggers by the notes they lead to are all triggers. -/
theorem triggers_perm :
    (sequence.graph.modules.flatMap fun module =>
        sequence.graph.patches.filter (·.target = ⟨module.id, "TRIG"⟩)).Perm
      (sequence.graph.patches.filter (·.signal = .trigger)) := by
  have patchesNodup := wellPatched.nodup_patches
  have modulesNodup : sequence.graph.modules.Pairwise fun first second => first.id ≠ second.id :=
    numbered.increasing.imp Nat.ne_of_lt
  rw [List.perm_ext_iff_of_nodup _ (patchesNodup.filter _)]
  · intro patch
    simp only [List.mem_flatMap, List.mem_filter, decide_eq_true_eq]
    constructor
    · rintro ⟨module, _, isPatch, isTarget⟩
      obtain ⟨_, _, _, _, joins⟩ := wellPatched.joinsUnits isPatch
      exact ⟨isPatch, joins.trigger_iff.1.mpr (congrArg Endpoint.socket isTarget)⟩
    · rintro ⟨isPatch, isTrigger⟩
      obtain ⟨_, target, _, targetFound, joins⟩ := wellPatched.joinsUnits isPatch
      obtain ⟨module, isModule, _⟩ := Option.map_eq_some_iff.mp targetFound
      obtain ⟨member, sameId⟩ := Graph.module?_some isModule
      refine ⟨module, member, isPatch, ?_⟩
      rw [sameId, ← joins.trigger_iff.1.mp isTrigger]
  · refine List.nodup_flatMap.mpr ⟨fun module _ => patchesNodup.filter _, ?_⟩
    apply modulesNodup.imp
    intro first second different patch isFirst isSecond
    simp only [List.mem_filter, decide_eq_true_eq] at isFirst isSecond
    exact different (congrArg Endpoint.module (isFirst.2.symm.trans isSecond.2))

/-- There is one document for every trigger. -/
theorem length_compile :
    sequence.compile.length = sequence.graph.patches.countP (·.signal = .trigger) := by
  calc sequence.compile.length
      = (sequence.graph.modules.flatMap sequence.notes).length := by
        rw [compile_eq_score wellPatched numbered, score]
        exact ((List.reverse_perm _).flatMap_right _).length_eq
    _ = (sequence.graph.modules.flatMap fun module =>
          sequence.graph.patches.filter (·.target = ⟨module.id, "TRIG"⟩)).length := by
        rw [List.length_flatMap, List.length_flatMap]
        congr 1
        apply List.map_congr_left
        intro module member
        rw [length_notes wellPatched numbered member, List.countP_eq_length_filter]
    _ = sequence.graph.patches.countP (·.signal = .trigger) := by
        rw [(triggers_perm wellPatched numbered).length_eq, List.countP_eq_length_filter]

end Compiling

/-- How a sequence compiles. -/
structure Scored (sequence : Sequence) : Prop where
  /-- Nothing that is scheduled depends on itself. -/
  acyclic : sequence.graph.AcyclicBehind sequence.sinks
  /-- The documents are those of the notes, the last one first, each with its pulses. -/
  compile_eq : sequence.compile = sequence.score
  /-- There are as many documents as triggers. -/
  length_eq : sequence.compile.length = sequence.graph.patches.countP (·.signal = .trigger)
  /-- A note contributes a document for every trigger that leads to it. -/
  notes_length :
    ∀ module ∈ sequence.graph.modules,
      (sequence.notes module).length =
        sequence.graph.patches.countP (·.target = ⟨module.id, "TRIG"⟩)
  /-- Without a trigger a note contributes nothing. -/
  notes_untriggered :
    ∀ module ∈ sequence.graph.modules,
      (∀ patch ∈ sequence.graph.patches, patch.target ≠ ⟨module.id, "TRIG"⟩) →
        sequence.notes module = []

/-- Every reachable sequence compiles to its score. -/
theorem scored_of_reachable
    (sequence : Sequence)
    (reachable : sequence.Reachable) :
    sequence.Scored := by
  have wellPatched := reachable.storable.wellPatched
  have numbered := reachable.storable.numbered
  have notesLength {module : Module SequenceUnit} (member : module ∈ sequence.graph.modules) :=
    length_notes wellPatched numbered member
  refine ⟨acyclicBehind_sinks wellPatched, compile_eq_score wellPatched numbered,
    length_compile wellPatched numbered, fun _ => notesLength, ?_⟩
  intro module member untriggered
  rw [List.eq_nil_iff_length_eq_zero, notesLength member, List.countP_eq_zero]
  intro patch isPatch isTarget
  exact untriggered patch isPatch (of_decide_eq_true isTarget)

/-- A pulse that triggers two notes, a range that two sockets follow, and a note on its own. -/
def sharedBeat : List (Operation SequenceUnit) :=
  [.add (.playNote PlayNote.dials) .origin,
    .add (.playNote PlayNote.dials) .origin,
    .add (.playNote PlayNote.dials) .origin,
    .add (.pulse Pulse.dials) .origin,
    .add (.pulse Pulse.dials) .origin,
    .add (.range .sweep RangeKind.dials) .origin,
    .setDial 5 "every" 3,
    .connect ⟨0, "CLOCK"⟩ ⟨4, "CLOCK"⟩,
    .connect ⟨5, "TRIG"⟩ ⟨1, "TRIG"⟩,
    .connect ⟨4, "TRIG"⟩ ⟨1, "TRIG"⟩,
    .connect ⟨3, "TRIG"⟩ ⟨4, "TRIG"⟩,
    .connect ⟨6, "OUT"⟩ ⟨3, "NOTE"⟩,
    .connect ⟨6, "OUT"⟩ ⟨3, "VEL"⟩]

/-- The note that was added last is heard first, and the one without a trigger is not heard. -/
theorem scored_of_reachable_shared :
    let sequence : Sequence := ⟨5, (Sequence.new 5).graph.run sharedBeat⟩
    sequence.sinks = [1, 2, 3] ∧
      sequence.Scored ∧
      sequence.compile.length = 3 ∧
      sequence.graph.modules.map (fun module => (sequence.notes module).length) =
        [0, 2, 0, 1, 0, 0, 0] := by
  intro sequence
  have reachable : sequence.Reachable :=
    reachable_run (Operation.drawn_of_isPlain (by decide +kernel)) 5
  have scored := scored_of_reachable sequence reachable
  refine ⟨by decide +kernel, scored, ?_, by decide +kernel⟩
  rw [scored.length_eq]
  decide +kernel

end Sequence

end SynthGraph
