import SynthGraph.Proofs.Document.Records
import SynthGraph.Proofs.Graph.FirstMet
import SynthGraph.Proofs.Sequence.Notes

namespace SynthGraph

/-!
# Which range a note follows

Several ranges may be patched into one socket of a note.  The note follows the
one that the walk meets first: notes are visited in their order, and the patches
into each in theirs (`Sequence.metFirst?`).  This is the range that was patched
into the socket first unless an earlier note, or another socket of this note,
shows the walk a different one before
(`Sequence.followsFirstMet_of_reachable`).
-/

/-- The dials of a note that ranges may replace. -/
inductive Automation where
  | pitch
  | velocity
  deriving Repr, DecidableEq

namespace Automation

/-- The socket that ranges are patched into. -/
def socket : Automation → String
  | pitch => "NOTE"
  | velocity => "VEL"

/-- The dial that is replaced, which is a field of the note too. -/
def dial : Automation → String
  | pitch => "note"
  | velocity => "velocity"

/-- The field of the note that holds the range. -/
def field : Automation → String
  | pitch => "auto_note"
  | velocity => "auto_velocity"

theorem isInput
    (automation : Automation)
    (dials : Dials) :
    .input automation.socket .integer ∈ UnitLike.inputs (SequenceUnit.playNote dials) := by
  refine List.mem_filter.mpr ⟨?_, rfl⟩
  cases automation <;> simp [UnitLike.sockets, SequenceUnit.sockets, socket]

theorem socket_ne_trigger
    (automation : Automation) :
    automation.socket ≠ "TRIG" := by
  cases automation <;> decide

end Automation

/-- The note that a document repeats. -/
def Document.repeatedNote? (document : Document) : Option Document :=
  (document.field? "repeat").bind (·.field? PlayNote.kind)

namespace Sequence

/-- The documents that a module contributes to those of the sequence. -/
def contributed (sequence : Sequence) (id : ModuleId) : List Document :=
  (((sequence.graph.reduce sequence.channel sequence.sinks).get? id).map Emission.finished).getD []

/--
Of the modules patched into a socket, the one that is met first when the notes
are gone through in their order and the patches into each note in theirs.
-/
def metFirst? (sequence : Sequence) (endpoint : Endpoint) : Option ModuleId :=
  (sequence.sinks.flatMap sequence.graph.feeders).find?
    (· ∈ sequence.graph.producersInto endpoint)

section Documents

variable (sequence : Sequence) (note : ModuleId) (dials : Dials)

/-- The field of a note that is automated: the range that it follows, or the dial. -/
def automated (automation : Automation) : String × Document :=
  sequence.followed ⟨note, automation.socket⟩ automation.field automation.dial
    (Dials.value dials automation.dial)

/-- The fields of a note in its documents. -/
def noteFields : List (String × Document) :=
  [("duration", .number (Dials.value dials "duration")),
    ("channel", .natural sequence.channel.toNat),
    sequence.automated note dials .pitch,
    sequence.automated note dials .velocity]

/-- A document of a note repeats the note with its automated fields. -/
theorem repeatedNote?_played
    (pulse : Dials) :
    (sequence.played note dials pulse).repeatedNote? =
      some (.record (sequence.noteFields note dials)) := by
  rw [Document.repeatedNote?, played, Document.field?_record (by simp) List.mem_cons_self,
    Option.bind_some]
  exact Document.field?_record (by simp) (List.mem_cons_of_mem _ List.mem_cons_self)

theorem automated_fst
    (automation : Automation) :
    (sequence.automated note dials automation).1 = automation.field ∨
      (sequence.automated note dials automation).1 = automation.dial := by
  rw [automated, followed]
  split
  · exact Or.inl rfl
  · exact Or.inr rfl

theorem automated_mem_noteFields
    (automation : Automation) :
    sequence.automated note dials automation ∈ sequence.noteFields note dials := by
  cases automation <;> simp [noteFields]

theorem names_noteFields_nodup :
    ((sequence.noteFields note dials).map Prod.fst).Nodup := by
  rcases sequence.automated_fst note dials .pitch with pitch | pitch <;>
    rcases sequence.automated_fst note dials .velocity with velocity | velocity <;>
      simp [noteFields, pitch, velocity, Automation.field, Automation.dial]

variable {sequence note dials}

/-- Where a range is followed, the field of the dial is missing. -/
theorem dial_notMem_noteFields
    {automation : Automation}
    (isFollowed : (sequence.automated note dials automation).1 = automation.field) :
    automation.dial ∉ (sequence.noteFields note dials).map Prod.fst := by
  cases automation with
  | pitch =>
      rcases sequence.automated_fst note dials .velocity with velocity | velocity <;>
        simp [noteFields, isFollowed, velocity, Automation.field, Automation.dial]
  | velocity =>
      rcases sequence.automated_fst note dials .pitch with pitch | pitch <;>
        simp [noteFields, isFollowed, pitch, Automation.field, Automation.dial]

end Documents

/-- A sequence compiles to what its modules contribute. -/
theorem compile_eq_contributed
    {sequence : Sequence}
    (wellPatched : sequence.graph.WellPatched) :
    sequence.compile =
      (sequence.graph.schedule sequence.sinks).emission.flatMap sequence.contributed := by
  obtain ⟨meaning, isMeaning⟩ :=
    Graph.exists_isMeaning wellPatched wellPatched.wellFounded_sequence sequence.channel
      (sequence.graph.discover sequence.sinks)
  have acyclic := acyclicBehind_sinks wellPatched
  have reduces := Graph.reducesToMeaning_of_acyclic wellPatched sequence.channel acyclic
  rw [compile, Graph.reduce_eq_map wellPatched sequence.channel sequence.sinks acyclic isMeaning,
    List.flatMap_map]
  apply List.flatMap_congr
  intro id isScheduled
  have behind := Graph.mem_emission.mp isScheduled
  obtain ⟨unit, found⟩ := behind.unit?_isSome wellPatched
  rw [contributed, reduces.get?_eq behind (isMeaning id unit found), Option.map_some,
    Option.getD_some]

/-- Every document of a sequence is a note on the channel of the sequence. -/
theorem channel_of_mem_compile
    {sequence : Sequence}
    (wellPatched : sequence.graph.WellPatched)
    (numbered : sequence.graph.Numbered)
    {document : Document}
    (member : document ∈ sequence.compile) :
    ∃ body,
      document.repeatedNote? = some body ∧
        body.field? "channel" = some (.natural sequence.channel.toNat) := by
  rw [compile_eq_score wellPatched numbered] at member
  obtain ⟨module, _, isPlayed⟩ := List.mem_flatMap.mp member
  rw [notes] at isPlayed
  split at isPlayed
  · next dials _ =>
    obtain ⟨pulse, _, rfl⟩ := List.mem_map.mp isPlayed
    refine ⟨_, sequence.repeatedNote?_played module.id dials pulse, ?_⟩
    exact Document.field?_record (sequence.names_noteFields_nodup module.id dials)
      (List.mem_cons_of_mem _ List.mem_cons_self)
  · cases isPlayed

section Following

variable
  {sequence : Sequence}
  (wellPatched : sequence.graph.WellPatched)
  {note : ModuleId}
  {dials : Dials}
  (isNote : sequence.graph.unit? note = some (.playNote dials))

section Producers

include wellPatched isNote

theorem patchesAt_automation
    {automation : Automation} :
    sequence.graph.patchesAt ⟨note, automation.socket⟩ =
      sequence.graph.patches.filter (·.target = ⟨note, automation.socket⟩) :=
  Graph.patchesAt_of_input wellPatched
    (Graph.hasSocket_of_mem_inputs isNote (automation.isInput dials))

/-- Into the automated sockets of a note only ranges are patched. -/
theorem range_of_mem_producersInto
    {automation : Automation}
    {producer : ModuleId}
    (isProducer : producer ∈ sequence.graph.producersInto ⟨note, automation.socket⟩) :
    ∃ walk rangeDials, sequence.graph.unit? producer = some (.range walk rangeDials) := by
  obtain ⟨patch, isPatch, isTarget, rfl⟩ := Graph.mem_producersInto.mp isProducer
  obtain ⟨source, target, sourceFound, targetFound, joins⟩ := wellPatched.joinsUnits isPatch
  rw [isTarget, isNote, Option.some.injEq] at targetFound
  subst targetFound
  cases joins with
  | trigger pulse _ _ isTrigger =>
      rw [isTarget] at isTrigger
      exact absurd isTrigger automation.socket_ne_trigger
  | integer walk rangeDials _ _ _ =>
      exact ⟨walk, rangeDials, sourceFound⟩

end Producers

variable (numbered : sequence.graph.Numbered)

include isNote numbered

section Documents

include wellPatched

/-- The range that is met first is the one that is discovered first. -/
theorem find?_discover_eq_metFirst?
    (automation : Automation) :
    (sequence.graph.discover sequence.sinks).find?
        (· ∈ sequence.graph.producersInto ⟨note, automation.socket⟩) =
      sequence.metFirst? ⟨note, automation.socket⟩ := by
  have allLive : sequence.graph.liveSinks sequence.sinks = sequence.sinks := by
    rw [Graph.liveSinks, List.filter_eq_self.mpr (live_sinks numbered)]
    exact Graph.unseen_eq_self (nodup_sinks numbered) (by simp)
  rw [metFirst?]
  nth_rewrite 2 [← allLive]
  apply Graph.find?_discover
  · intro producer isProducer isSink
    rw [allLive] at isSink
    obtain ⟨walk, rangeDials, isRange⟩ :=
      range_of_mem_producersInto wellPatched isNote (of_decide_eq_true isProducer)
    obtain ⟨noteDials, isOther⟩ := unit?_of_mem_sinks numbered isSink
    cases isRange.symm.trans isOther
  · intro producer isProducer
    rw [allLive]
    exact ⟨note, mem_sinks_of_unit? isNote,
      Graph.feeds_of_mem_producersInto (of_decide_eq_true isProducer)⟩

/-- A note with a patched socket follows the range that is met first. -/
theorem exists_followed
    (automation : Automation)
    (patched : sequence.graph.patchesAt ⟨note, automation.socket⟩ ≠ []) :
    ∃ range walk rangeDials,
      sequence.metFirst? ⟨note, automation.socket⟩ = some range ∧
        sequence.graph.unit? range = some (.range walk rangeDials) ∧
        ∀ automatic id value,
          sequence.followed ⟨note, automation.socket⟩ automatic id value =
            (automatic, walk.compile rangeDials) := by
  rw [patchesAt_automation wellPatched isNote] at patched
  obtain ⟨patch, isPatch⟩ := List.exists_mem_of_ne_nil _ patched
  have isProducer :
      patch.source.module ∈ sequence.graph.producersInto ⟨note, automation.socket⟩ :=
    List.mem_map_of_mem isPatch
  have isMet :
      patch.source.module ∈ sequence.sinks.flatMap sequence.graph.feeders :=
    List.mem_flatMap.mpr ⟨note, mem_sinks_of_unit? isNote,
      Graph.mem_feeders.mpr (Graph.feeds_of_mem_producersInto isProducer)⟩
  have isSome : (sequence.metFirst? ⟨note, automation.socket⟩).isSome :=
    List.find?_isSome.mpr ⟨_, isMet, decide_eq_true isProducer⟩
  obtain ⟨range, isFirst⟩ := Option.isSome_iff_exists.mp isSome
  have isProducer : range ∈ sequence.graph.producersInto ⟨note, automation.socket⟩ := by
    simpa using List.find?_some isFirst
  obtain ⟨walk, rangeDials, isRange⟩ :=
    range_of_mem_producersInto wellPatched isNote isProducer
  refine ⟨range, walk, rangeDials, isFirst, isRange, ?_⟩
  intro automatic id value
  have discoveredFirst := find?_discover_eq_metFirst? wellPatched isNote numbered automation
  rw [isFirst, ← List.head?_filter, List.head?_eq_some_iff] at discoveredFirst
  obtain ⟨others, discovered⟩ := discoveredFirst
  rw [followed, unitsInto, discovered, List.filterMap_cons_some isRange]
  rfl

/-- What a note contributes is one document for every pulse that is patched into it. -/
theorem contributed_note :
    sequence.contributed note =
      (sequence.pulsesInto ⟨note, "TRIG"⟩).map (sequence.played note dials) := by
  obtain ⟨meaning, isMeaning⟩ :=
    Graph.exists_isMeaning wellPatched wellPatched.wellFounded_sequence sequence.channel
      (sequence.graph.discover sequence.sinks)
  have reduces :=
    Graph.reducesToMeaning_of_acyclic wellPatched sequence.channel
      (acyclicBehind_sinks wellPatched)
  have isSink := mem_sinks_of_unit? isNote
  have behind : sequence.graph.Behind sequence.sinks note :=
    ⟨note, isSink, live_sinks numbered note isSink, .refl⟩
  have emitted := reduces.get?_eq behind (isMeaning note _ isNote)
  rw [contributed, emitted, Option.map_some, Option.getD_some,
    finished_note wellPatched isMeaning isNote]

theorem length_contributed :
    (sequence.contributed note).length =
      sequence.graph.patches.countP (·.target = ⟨note, "TRIG"⟩) := by
  rw [contributed_note wellPatched isNote numbered, List.length_map,
    length_pulsesInto wellPatched isNote]

/-- In the documents of a note with a patched socket the range takes the place of the dial. -/
theorem note_of_mem_contributed
    {automation : Automation}
    {document rangeDocument : Document}
    (isFollowed :
      sequence.automated note dials automation = (automation.field, rangeDocument))
    (member : document ∈ sequence.contributed note) :
    ∃ body,
      document.repeatedNote? = some body ∧
        body.field? automation.field = some rangeDocument ∧
        body.field? automation.dial = none := by
  rw [contributed_note wellPatched isNote numbered] at member
  obtain ⟨pulse, _, rfl⟩ := List.mem_map.mp member
  refine ⟨_, sequence.repeatedNote?_played note dials pulse, ?_, ?_⟩
  · apply Document.field?_record (sequence.names_noteFields_nodup note dials)
    rw [← isFollowed]
    exact sequence.automated_mem_noteFields note dials automation
  · exact Document.field?_record_of_notMem
      (dial_notMem_noteFields (congrArg Prod.fst isFollowed))

end Documents

/--
If the ranges in a socket are patched to nothing else but later notes, the one
that is met first is the one that was patched into the socket first.
-/
theorem metFirst?_eq_head?
    {automation : Automation}
    (onlyLater :
      ∀ patch ∈ sequence.graph.patches,
        patch.source.module ∈ sequence.graph.producersInto ⟨note, automation.socket⟩ →
          patch.target = ⟨note, automation.socket⟩ ∨ note < patch.target.module) :
    sequence.metFirst? ⟨note, automation.socket⟩ =
      (sequence.graph.producersInto ⟨note, automation.socket⟩).head? := by
  have increasing : sequence.sinks.Pairwise (· < ·) :=
    List.pairwise_map.mpr (numbered.increasing.filter _)
  obtain ⟨before, after, splits⟩ := List.append_of_mem (mem_sinks_of_unit? isNote)
  rw [splits, List.pairwise_append] at increasing
  have areBefore : ∀ earlier ∈ before, earlier < note :=
    fun earlier isBefore => increasing.2.2 earlier isBefore note List.mem_cons_self
  rw [metFirst?, splits, List.flatMap_append, List.flatMap_cons, List.find?_append,
    List.find?_append, Graph.find?_feeders_eq_none onlyLater areBefore,
    Graph.find?_feeders_eq_head? onlyLater, Option.none_or]
  cases producers : sequence.graph.producersInto ⟨note, automation.socket⟩ with
  | nil =>
      simp
  | cons first others =>
      rfl

end Following

/-- How the notes of a sequence follow the ranges that are patched into them. -/
structure FollowsFirstMet (sequence : Sequence) : Prop where
  /-- The documents of a sequence are contributed by its modules, in compile order. -/
  compile_eq :
    sequence.compile =
      (sequence.graph.schedule sequence.sinks).emission.flatMap sequence.contributed
  /--
  If a socket of a note is patched, every document of the note holds the range
  that is met first, and not the dial.
  -/
  followed :
    ∀ note dials (automation : Automation),
      sequence.graph.unit? note = some (.playNote dials) →
        sequence.graph.patchesAt ⟨note, automation.socket⟩ ≠ [] →
          ∃ range walk rangeDials,
            sequence.metFirst? ⟨note, automation.socket⟩ = some range ∧
              sequence.graph.unit? range = some (.range walk rangeDials) ∧
              ∀ document ∈ sequence.contributed note,
                ∃ body,
                  document.repeatedNote? = some body ∧
                    body.field? automation.field = some (walk.compile rangeDials) ∧
                    body.field? automation.dial = none
  /--
  This is the range that was patched in first if the ranges in the socket are
  patched to nothing else but later notes.
  -/
  patched_first :
    ∀ note dials (automation : Automation),
      sequence.graph.unit? note = some (.playNote dials) →
        (∀ patch ∈ sequence.graph.patchesAt ⟨note, automation.socket⟩,
          ∀ other ∈ sequence.graph.patches,
            other.source.module = patch.source.module →
              other.target = ⟨note, automation.socket⟩ ∨ note < other.target.module) →
          sequence.metFirst? ⟨note, automation.socket⟩ =
            (sequence.graph.patchesAt ⟨note, automation.socket⟩).head?.map (·.source.module)

/-- In every sequence that can come about, notes follow the ranges that are met first. -/
theorem followsFirstMet_of_reachable
    {sequence : Sequence}
    (reachable : sequence.Reachable) :
    sequence.FollowsFirstMet := by
  have wellPatched := reachable.storable.wellPatched
  have numbered := reachable.storable.numbered
  refine ⟨compile_eq_contributed wellPatched, ?_, ?_⟩
  · intro note dials automation isNote patched
    obtain ⟨range, walk, rangeDials, isFirst, isRange, followed⟩ :=
      exists_followed wellPatched isNote numbered automation patched
    refine ⟨range, walk, rangeDials, isFirst, isRange, fun document member => ?_⟩
    exact note_of_mem_contributed wellPatched isNote numbered
      (followed automation.field automation.dial _) member
  · intro note dials automation isNote onlyLater
    rw [patchesAt_automation wellPatched isNote] at onlyLater ⊢
    rw [← List.head?_map, ← Graph.producersInto]
    apply metFirst?_eq_head? isNote numbered
    intro other isPatch isProducer
    obtain ⟨patch, isIn, isTarget, sameSource⟩ := Graph.mem_producersInto.mp isProducer
    exact onlyLater patch (List.mem_filter.mpr ⟨isIn, decide_eq_true isTarget⟩) other isPatch
      sameSource.symm

/--
A pulse for two notes, a sweep that leads to both of them, and a range that leads
to the second one only and was patched into it before the sweep.
-/
def crossing : List (Operation SequenceUnit) :=
  [.add (.playNote PlayNote.dials) .origin,
    .add (.playNote PlayNote.dials) .origin,
    .add (.pulse Pulse.dials) .origin,
    .add (.range .range RangeKind.dials) .origin,
    .add (.range .sweep RangeKind.dials) .origin,
    .connect ⟨3, "TRIG"⟩ ⟨1, "TRIG"⟩,
    .connect ⟨3, "TRIG"⟩ ⟨2, "TRIG"⟩,
    .connect ⟨5, "OUT"⟩ ⟨1, "NOTE"⟩,
    .connect ⟨4, "OUT"⟩ ⟨2, "NOTE"⟩,
    .connect ⟨5, "OUT"⟩ ⟨2, "NOTE"⟩]

theorem reachable_crossing :
    Reachable ⟨5, (Sequence.new 5).graph.run crossing⟩ :=
  reachable_run (Operation.drawn_of_isPlain (by decide +kernel)) 5

/-- The first note has one range only, which is the one that it follows. -/
theorem followsFirstMet_of_reachable_crossing :
    let sequence : Sequence := ⟨5, (Sequence.new 5).graph.run crossing⟩
    sequence.Reachable ∧
      sequence.FollowsFirstMet ∧
      (sequence.contributed 1).length = 1 ∧
      sequence.metFirst? ⟨1, "NOTE"⟩ = some 5 ∧
      ∀ document ∈ sequence.contributed 1,
        ∃ body,
          document.repeatedNote? = some body ∧
            body.field? "auto_note" = some (RangeKind.sweep.compile RangeKind.dials) := by
  intro sequence
  have follows := followsFirstMet_of_reachable reachable_crossing
  have isNote : sequence.graph.unit? 1 = some (.playNote PlayNote.dials) := by
    decide +kernel
  obtain ⟨range, walk, rangeDials, isFirst, isRange, followed⟩ :=
    follows.followed 1 PlayNote.dials .pitch isNote (by decide +kernel)
  have isSweep : sequence.metFirst? ⟨1, "NOTE"⟩ = some 5 := by
    decide +kernel
  obtain rfl : range = 5 := Option.some.inj (isFirst.symm.trans isSweep)
  have sweepFound :
      sequence.graph.unit? 5 = some (.range .sweep RangeKind.dials) := by
    decide +kernel
  cases isRange.symm.trans sweepFound
  have oneTrigger : (sequence.contributed 1).length = 1 := by
    rw [length_contributed reachable_crossing.storable.wellPatched isNote
      reachable_crossing.storable.numbered]
    decide +kernel
  refine ⟨reachable_crossing, follows, oneTrigger, isSweep, fun document member => ?_⟩
  obtain ⟨body, isBody, isAutomated, _⟩ := followed document member
  exact ⟨body, isBody, isAutomated⟩

/-- The second note follows the sweep, although the range was patched into it first. -/
theorem followed_later_crossing :
    let sequence : Sequence := ⟨5, (Sequence.new 5).graph.run crossing⟩
    sequence.Reachable ∧
      sequence.graph.unit? 2 = some (.playNote PlayNote.dials) ∧
      (sequence.graph.patchesAt ⟨2, "NOTE"⟩).map (·.source.module) = [4, 5] ∧
      sequence.graph.unit? 4 = some (.range .range RangeKind.dials) ∧
      ∃ document ∈ sequence.contributed 2,
        document.repeatedNote?.bind (·.field? "auto_note") ≠
          some (RangeKind.range.compile RangeKind.dials) := by
  intro sequence
  have wellPatched := reachable_crossing.storable.wellPatched
  have numbered := reachable_crossing.storable.numbered
  have isNote : sequence.graph.unit? 2 = some (.playNote PlayNote.dials) := by
    decide +kernel
  obtain ⟨range, walk, rangeDials, isFirst, isRange, followed⟩ :=
    exists_followed wellPatched isNote numbered .pitch (by decide +kernel)
  have isSweep : sequence.metFirst? ⟨2, "NOTE"⟩ = some 5 := by
    decide +kernel
  obtain rfl : range = 5 := Option.some.inj (isFirst.symm.trans isSweep)
  have sweepFound :
      sequence.graph.unit? 5 = some (.range .sweep RangeKind.dials) := by
    decide +kernel
  cases isRange.symm.trans sweepFound
  have contributes : 0 < (sequence.contributed 2).length := by
    rw [length_contributed wellPatched isNote numbered]
    decide +kernel
  obtain ⟨document, member⟩ := List.exists_mem_of_length_pos contributes
  refine ⟨reachable_crossing, isNote, by decide +kernel, by decide +kernel, document, member, ?_⟩
  obtain ⟨body, isBody, isAutomated, _⟩ :=
    note_of_mem_contributed wellPatched isNote numbered (followed _ _ _) member
  rw [isBody, Option.bind_some]
  intro isRange
  have sameKey := isAutomated.symm.trans isRange
  simp [RangeKind.compile, RangeKind.kind, Document.keyed] at sameKey

end Sequence

end SynthGraph
