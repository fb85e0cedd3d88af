import SynthGraph.Proofs.Instrument.Parts

namespace SynthGraph

/-!
# Where generators write the pitch of their dial

A generator writes the pitch of its dial if nothing arrives at `FREQ`.  A patch
there keeps it from doing so, except that what is patched in may be compiled too
late: then a cycle leads to it, and the walk found it before the generator
(`Instrument.fixedPitch_of_reachable`).  A generator to which no cycle leads
follows its patches.
-/

/-- The pitch of the dial is written if nothing arrives. -/
theorem Generator.get?_pitch_body
    (dials : Dials)
    (connections : Connections) :
    Entries.get? "pitch" (body dials connections) =
      if connections.isConnected "FREQ" then
        none
      else
        some (.number (Dials.value dials "pitch")) := by
  have notWritten : Entries.get? "pitch" (dialFields dials writtenDials) = none :=
    Entries.get?_insertAll_of_notMem (by simp [writtenDials]) []
  unfold body
  split
  · split
    · rw [Entries.get?_insert_of_ne (by decide), notWritten]
    · exact notWritten
  · rw [Entries.get?_insert_self]

namespace Instrument

open SynthGraph.Graph

/-- Which generators write the pitch of their dial. -/
structure FixedPitch (instrument : Instrument) : Prop where
  /--
  A generator behind the first output does if all that is patched into it is fed
  by cycles and was found before it.
  -/
  pitch_iff :
    ∀ output id waveform dials,
      instrument.graph.findKind? InstrumentUnit.outputKind = some output →
        instrument.graph.Behind [output] id →
          instrument.graph.unit? id = some (.generator waveform dials) →
            ∃ body : Document.Fields,
              (instrument.emissions output).get? id =
                  some (.document (.keyed waveform.documentKey body)) ∧
                ((Entries.get? "pitch" body).isSome ↔
                  ∀ patch ∈ instrument.graph.patchesAt ⟨id, "FREQ"⟩,
                    instrument.graph.FedByCycle patch.source.module ∧
                      (instrument.graph.schedule [output]).discovery.idxOf patch.source.module <
                        (instrument.graph.schedule [output]).discovery.idxOf id)
  /-- If no cycle leads to the generator, it does if it is not patched. -/
  pitch_iff_of_free :
    ∀ output id waveform dials,
      instrument.graph.findKind? InstrumentUnit.outputKind = some output →
        instrument.graph.Behind [output] id →
          instrument.graph.unit? id = some (.generator waveform dials) →
            ¬ instrument.graph.FedByCycle id →
              ∃ body : Document.Fields,
                (instrument.emissions output).get? id =
                    some (.document (.keyed waveform.documentKey body)) ∧
                  ((Entries.get? "pitch" body).isSome ↔
                    instrument.graph.patchesAt ⟨id, "FREQ"⟩ = [])

section Storable

variable
  {instrument : Instrument}
  (storable : instrument.graph.Storable)
  {output id : ModuleId}
  (behind : instrument.graph.Behind [output] id)
  {waveform : Waveform}
  {dials : Dials}
  (found : instrument.graph.unit? id = some (.generator waveform dials))

include storable found

/-- No generator is patched into its own pitch. -/
theorem source_ne_generator
    {patch : Patch}
    (member : patch ∈ instrument.graph.patches)
    (isTarget : patch.target = ⟨id, "FREQ"⟩) :
    patch.source.module ≠ id := by
  intro isSource
  have isInput : instrument.graph.HasSocket ⟨id, "FREQ"⟩ .input .frequency := ⟨_, found, rfl⟩
  have source := storable.wellPatched.source_of_input isInput member isTarget
  rw [← isSource] at found
  cases InstrumentUnit.sent?_of_mem_sockets (source.mem_sockets found)

include behind

/-- A generator emits a wave; it has the pitch of its dial if all patches come too late. -/
theorem exists_wave :
    ∃ body : Document.Fields,
      (instrument.emissions output).get? id =
          some (.document (.keyed waveform.documentKey body)) ∧
        ((Entries.get? "pitch" body).isSome ↔
          ∀ patch ∈ instrument.graph.patchesAt ⟨id, "FREQ"⟩,
            instrument.graph.FedByCycle patch.source.module ∧
              (instrument.graph.schedule [output]).discovery.idxOf patch.source.module <
                (instrument.graph.schedule [output]).discovery.idxOf id) := by
  have wellPatched := storable.wellPatched
  have isCompiled : id ∈ (instrument.emissions output).map Prod.fst := by
    rw [emissions, map_fst_reduce wellPatched]
    exact mem_emission.mpr behind
  obtain ⟨emission, isEmitted, isStep⟩ := Emissions.get?_of_mem isCompiled
  obtain ⟨before, after, splits⟩ := List.append_of_mem isStep
  obtain ⟨_, unit, sameFound, rfl⟩ := reduce_step splits
  obtain rfl := Option.some.inj (found.symm.trans sameFound)
  refine ⟨_, isEmitted, ?_⟩
  have isInput :
      Socket.input "FREQ" .frequency ∈ UnitLike.inputs (InstrumentUnit.generator waveform dials) :=
    List.mem_cons_self
  have connected := isConnected_of_step_iff splits wellPatched found isInput
  have hasPitch (arriving : Connections) :
      (Entries.get? "pitch" (Generator.body dials arriving)).isSome ↔
        ¬ arriving.isConnected "FREQ" := by
    rw [Generator.get?_pitch_body]
    split <;> simp_all
  rw [hasPitch]
  refine (not_congr connected).trans ?_
  push Not
  refine forall₂_congr fun patch member => and_congr_right fun _ => ?_
  rw [patchesAt_of_input wellPatched (hasSocket_of_mem_inputs found isInput)] at member
  obtain ⟨isPatch, isTarget⟩ := List.mem_filter.mp member
  have notSame := source_ne_generator storable found isPatch (of_decide_eq_true isTarget)
  have isDiscovered : id ∈ instrument.graph.discover [output] := mem_discover.mpr behind
  have sourceDiscovered : patch.source.module ∈ instrument.graph.discover [output] :=
    discover_closed isDiscovered (feeds_of_mem_producersInto (List.mem_map_of_mem member))
  have notSameRank :
      (instrument.graph.discover [output]).idxOf patch.source.module ≠
        (instrument.graph.discover [output]).idxOf id :=
    fun sameRank => notSame ((List.idxOf_inj sourceDiscovered).mp sameRank)
  exact ⟨fun notAfter => Nat.lt_of_le_of_ne notAfter notSameRank, Nat.le_of_lt⟩

end Storable

/-- In every instrument that can come about, these generators write the pitch of their dial. -/
theorem fixedPitch_of_reachable
    {instrument : Instrument}
    (reachable : instrument.Reachable) :
    instrument.FixedPitch where
  pitch_iff output id waveform dials _ behind found :=
    exists_wave reachable.storable behind found
  pitch_iff_of_free output id waveform dials _ behind found free := by
    obtain ⟨body, emitted, hasPitch⟩ := exists_wave reachable.storable behind found
    refine ⟨body, emitted, hasPitch.trans ?_⟩
    have isInput : instrument.graph.HasSocket ⟨id, "FREQ"⟩ .input .frequency := ⟨_, found, rfl⟩
    rw [patchesAt_of_input reachable.storable.wellPatched isInput, List.eq_nil_iff_forall_not_mem]
    refine forall_congr' fun patch => ?_
    constructor
    · intro late member
      have feeds : instrument.graph.Feeds patch.source.module id :=
        feeds_of_mem_producersInto (List.mem_map_of_mem member)
      exact free ((late member).1.of_feeds feeds)
    · intro absent member
      exact absurd member absent

/--
A sine at a pitch that is derived from itself, and another sine at the same pitch
whose sound is filtered first.
-/
def circling : List (Operation InstrumentUnit) :=
  [.add (.transpose Transpose.dials) .origin,
    .add (.ofWaveform .sine) .origin,
    .add (.ofMode .lowPass) .origin,
    .add (.ofWaveform .sine) .origin,
    .connect ⟨2, "FREQ"⟩ ⟨2, "FREQ IN"⟩,
    .connect ⟨3, "OUT"⟩ ⟨1, "IN"⟩,
    .connect ⟨4, "OUT"⟩ ⟨1, "IN"⟩,
    .connect ⟨5, "OUT"⟩ ⟨4, "IN"⟩,
    .connect ⟨2, "FREQ"⟩ ⟨3, "FREQ"⟩,
    .connect ⟨2, "FREQ"⟩ ⟨5, "FREQ"⟩]

/-- The first sine is compiled after its pitch, so it leaves the dial out. -/
theorem fixedPitch_of_reachable_circling :
    let instrument : Instrument := ⟨none, none, Instrument.new.graph.run circling⟩
    instrument.Reachable ∧
      instrument.FixedPitch ∧
      ∃ body : Document.Fields,
        (instrument.emissions outputId).get? 3 = some (.document (.keyed "sine" body)) ∧
          ¬ (Entries.get? "pitch" body).isSome := by
  intro instrument
  have reachable : instrument.Reachable :=
    reachable_run (Operation.drawn_of_isPlain (by decide +kernel)) _ _
  have fixedPitch := fixedPitch_of_reachable reachable
  have isOutput : instrument.graph.findKind? InstrumentUnit.outputKind = some outputId := by
    decide +kernel
  have found : instrument.graph.unit? 3 = some (.ofWaveform .sine) := by
    decide +kernel
  have behind : instrument.graph.Behind [outputId] 3 := mem_emission.mp (by decide +kernel)
  obtain ⟨body, emitted, hasPitch⟩ := fixedPitch.pitch_iff outputId 3 _ _ isOutput behind found
  refine ⟨reachable, fixedPitch, body, emitted, ?_⟩
  have isPatched :
      ⟨⟨2, "FREQ"⟩, ⟨3, "FREQ"⟩, .frequency⟩ ∈ instrument.graph.patchesAt ⟨3, "FREQ"⟩ := by
    decide +kernel
  have inTime :
      ¬ (instrument.graph.schedule [outputId]).discovery.idxOf 2 <
        (instrument.graph.schedule [outputId]).discovery.idxOf 3 := by
    decide +kernel
  rw [hasPitch]
  exact fun late => inTime (late _ isPatched).2

/-- The second sine is patched to the same pitch, and still writes the pitch of its dial. -/
theorem pitch_of_patched_circling :
    let instrument : Instrument := ⟨none, none, Instrument.new.graph.run circling⟩
    instrument.Reachable ∧
      instrument.graph.findKind? InstrumentUnit.outputKind = some outputId ∧
      instrument.graph.Behind [outputId] 5 ∧
      instrument.graph.unit? 5 = some (.ofWaveform .sine) ∧
      ∃ body : Document.Fields,
        (instrument.emissions outputId).get? 5 = some (.document (.keyed "sine" body)) ∧
          ¬ ((Entries.get? "pitch" body).isSome ↔
            instrument.graph.patchesAt ⟨5, "FREQ"⟩ = []) := by
  intro instrument
  have reachable : instrument.Reachable :=
    reachable_run (Operation.drawn_of_isPlain (by decide +kernel)) _ _
  have found : instrument.graph.unit? 5 = some (.ofWaveform .sine) := by
    decide +kernel
  have behind : instrument.graph.Behind [outputId] 5 := mem_emission.mp (by decide +kernel)
  have patches :
      instrument.graph.patchesAt ⟨5, "FREQ"⟩ = [⟨⟨2, "FREQ"⟩, ⟨5, "FREQ"⟩, .frequency⟩] := by
    decide +kernel
  have circles : instrument.graph.FedByCycle 2 :=
    ⟨2, .refl, .single ⟨⟨⟨2, "FREQ"⟩, ⟨2, "FREQ IN"⟩, .frequency⟩, by decide +kernel, rfl, rfl⟩⟩
  have late :
      (instrument.graph.schedule [outputId]).discovery.idxOf 2 <
        (instrument.graph.schedule [outputId]).discovery.idxOf 5 := by
    decide +kernel
  obtain ⟨body, emitted, hasPitch⟩ := exists_wave reachable.storable behind found
  refine ⟨reachable, by decide +kernel, behind, found, body, emitted, ?_⟩
  rw [hasPitch, patches]
  simp [circles, late]

end Instrument

end SynthGraph
