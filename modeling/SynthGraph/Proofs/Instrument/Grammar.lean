import SynthGraph.Proofs.Definition.Reloading
import SynthGraph.Proofs.Document.Grammar
import SynthGraph.Proofs.Graph.Carrying

namespace SynthGraph

/-!
# The grammar of compiled instruments

Units keep the grammar: where sounds and pitches of the grammar arrive, units
emit sounds and pitches of the grammar.  So every instrument compiles to a
document of it, whatever cycles its graph has, and nothing that a unit or the
instrument writes takes the place of what was written before
(`Instrument.followsGrammar_of_reachable`).
-/

open Document

section Units

theorem Transpose.isPitch_compile
    {dials : Dials}
    {connections : Connections}
    (each : ∀ document ∈ connections.documents "FREQ IN", document.IsPitch) :
    (Transpose.compile dials connections).IsPitch :=
  .transpose _ (upstream_resolve? (fun _ => IsPitch.isSingle) each)
    (mergesAll_parameter (fun _ => IsPitch.isSingle) each (by decide) _)

/-- A pitch stands beside the dials that a wave always writes. -/
theorem Generator.hasFields_insert
    (dials : Dials)
    {name : String}
    (new : name ∉ writtenDials)
    (value : Document) :
    (object (Entries.insert name value (dialFields dials writtenDials))).HasFields
      (writtenDials.map (fun id => (id, .number (Dials.value dials id))) ++ [(name, value)]) := by
  have written :
      (object (dialFields dials writtenDials)).HasFields
        (writtenDials.map fun id => (id, .number (Dials.value dials id))) :=
    hasFields_record (by simp [writtenDials])
  have notWritten :
      name ∉ (writtenDials.map fun id => (id, number (Dials.value dials id))).map Prod.fst := by
    simpa using new
  exact (written.insert notWritten value).perm (List.perm_append_singleton _ _).symm

theorem Generator.isAudio_compile
    (waveform : Waveform)
    {dials : Dials}
    {connections : Connections}
    (each : ∀ document ∈ connections.documents "FREQ", document.IsPitch) :
    (Generator.compile waveform dials connections).IsAudio := by
  have ofPitch {pitch : Fields} (isPitch : PitchField pitch)
      (hasFields :
        (object (body dials connections)).HasFields
          (writtenDials.map (fun id => (id, .number (Dials.value dials id))) ++ pitch)) :
      (Generator.compile waveform dials connections).IsAudio :=
    .wave waveform (Dials.value dials) isPitch hasFields
  unfold body at ofPitch
  split at ofPitch
  · cases arriving : connections.resolve? "FREQ" with
    | none =>
        simp only [arriving] at ofPitch
        refine ofPitch .played ?_
        rw [List.append_nil]
        exact hasFields_record (by simp [writtenDials])
    | some pitch =>
        simp only [arriving] at ofPitch
        exact ofPitch (.automatic (oneOrCombined_of_resolve? each arriving))
          (hasFields_insert dials (by decide) pitch)
  · exact ofPitch (.fixed _) (hasFields_insert dials (by decide) _)

theorem Sample.isAudio_compile
    (sample : Sample)
    (dials : Dials) :
    (sample.compile dials).IsAudio :=
  .sample sample.file (Dials.value dials "gain") sample.pitched sample.basePitch
    (hasFields_record (by simp))

theorem Filter.isAudio_compile
    {mode : FilterMode}
    {dials : Dials}
    (turned : Dials.Turned mode.dials dials)
    {connections : Connections}
    (each : ∀ document ∈ connections.documents "IN", document.IsAudio) :
    (Filter.compile mode dials connections).IsAudio := by
  have idsNodup : (dials.map Dial.id).Nodup := turned.ids ▸ mode.declarable_dials.ids_nodup
  have parameters :
      (object (Filter.parameters dials)).HasFields
        (mode.dials.map fun dial => (dial.id, .number (Dials.value dials dial.id))) := by
    have sameFields :
        (mode.dials.map fun dial => (dial.id, number (Dials.value dials dial.id))) =
          dials.map fun dial => (dial.id, number dial.value) := by
      have sameIds := congrArg (List.map fun id => (id, number (Dials.value dials id))) turned.ids
      rw [List.map_map, List.map_map] at sameIds
      refine Eq.trans sameIds.symm ?_
      apply List.map_congr_left
      intro dial member
      rw [Function.comp_apply, Dials.value_of_mem idsNodup member]
    rw [sameFields]
    apply hasFields_record
    rw [List.map_map]
    exact idsNodup
  exact .filter mode (Dials.value dials) parameters
    (upstream_resolve? (fun _ => IsAudio.isSingle) each)
    (mergesAll_parameter (fun _ => IsAudio.isSingle) each (key_notMem_soundKeys mode) _)

end Units

/-- The form of the documents that a signal carries. -/
def Signal.Form : Signal → Document → Prop
  | .audio, document => document.IsAudio
  | .frequency, document => document.IsPitch
  | _, _ => True

namespace InstrumentUnit

/-- Whether a unit adds what arrives at it to its own parameters without a loss. -/
def MergesAll (arriving : Connections) : InstrumentUnit → Prop
  | filter mode dials =>
      Document.MergesAll [(mode.key, .object (Filter.parameters dials))] (arriving.resolve? "IN")
  | transpose dials =>
      Document.MergesAll [("semitones", .number (Dials.value dials "semitones"))]
        (arriving.resolve? "FREQ IN")
  | panning => Document.MergesAll [] (arriving.resolve? "FREQ")
  | _ => True

section Forms

variable
  {unit : InstrumentUnit}
  {arriving : Connections}
  (formed :
    ∀ socket ∈ UnitLike.inputs unit,
      ∀ document ∈ arriving.documents socket.name, socket.signal.Form document)

include formed

theorem mergesAll_of_formed : unit.MergesAll arriving := by
  cases unit with
  | input | output | generator | wav =>
      trivial
  | filter mode dials =>
      have each := formed (.input "IN" .audio) List.mem_cons_self
      exact mergesAll_parameter (fun _ => IsAudio.isSingle) each (key_notMem_soundKeys mode) _
  | transpose dials =>
      have each := formed (.input "FREQ IN" .frequency) List.mem_cons_self
      exact mergesAll_parameter (fun _ => IsPitch.isSingle) each (by decide) _
  | panning =>
      have each := formed (.input "FREQ" .frequency) List.mem_cons_self
      exact mergesAll_resolve? (fun _ => IsPitch.isSingle) each (by simp [Entries.Sorted])
        (by simp)

/-- A unit emits documents of the form of its output if only such arrive at its inputs. -/
theorem form_of_formed
    (tuned : CatalogUnit.Tuned unit)
    {name : String}
    {signal : Signal}
    {document : Document}
    (isOutput : .output name signal ∈ UnitLike.sockets unit)
    (compiled : (unit.compile arriving).document? = some document) :
    signal.Form document := by
  have isSent := sent?_of_mem_sockets isOutput
  cases unit with
  | input =>
      cases compiled
  | output =>
      cases isSent
  | generator waveform dials =>
      cases isSent
      cases compiled
      exact Generator.isAudio_compile waveform (formed (.input "FREQ" .frequency) List.mem_cons_self)
  | wav sample dials =>
      cases isSent
      cases compiled
      exact sample.isAudio_compile dials
  | filter mode dials =>
      cases isSent
      cases compiled
      exact Filter.isAudio_compile tuned (formed (.input "IN" .audio) List.mem_cons_self)
  | transpose dials =>
      cases isSent
      cases compiled
      exact Transpose.isPitch_compile (formed (.input "FREQ IN" .frequency) List.mem_cons_self)
  | panning =>
      cases isSent
      trivial

end Forms

end InstrumentUnit

namespace Instrument

/-- The fields that say what the engine calls an instrument. -/
def labels (instrument : Instrument) : Fields :=
  instrument.bankIndex.toList.map (fun index => ("index", .natural index.toNat)) ++
    instrument.name.toList.map fun name => ("name", .text name)

/-- The name and the bank slot stand beside a sound. -/
theorem hasFields_label
    (instrument : Instrument)
    {key : String}
    (isSound : key ∈ soundKeys)
    (body : Document) :
    (instrument.label (.object [(key, body)])).HasFields (instrument.labels ++ [(key, body)]) := by
  have single : (object [(key, body)]).HasFields [(key, body)] :=
    ⟨_, rfl, by simp [Entries.Sorted], .refl _⟩
  have notName : "name" ≠ key := by
    rintro rfl
    exact absurd isSound (by decide)
  have notIndex : "index" ≠ key := by
    rintro rfl
    exact absurd isSound (by decide)
  have named (name : String) :
      (object (Entries.insert "name" (.text name) [(key, body)])).HasFields
        [("name", .text name), (key, body)] :=
    single.insert (by simpa using notName) _
  cases isName : instrument.name <;> cases isIndex : instrument.bankIndex <;>
    simp only [label, labels, isName, isIndex]
  · exact single
  · exact single.insert (by simpa using notIndex) _
  · exact named _
  · exact (named _).insert (by simpa using notIndex) _

/-- What an instrument compiles to, on cycles too. -/
structure FollowsGrammar (instrument : Instrument) : Prop where
  /-- The document is one sound or several combined, with the name and the bank slot if set. -/
  compiled :
    ∀ document,
      instrument.compile? = some document →
        ∃ output sound,
          instrument.graph.findKind? InstrumentUnit.outputKind = some output ∧
            (instrument.emissions output).get? output = some (.document (.object sound)) ∧
            OneOrCombined IsAudio (.object sound) ∧
            document.HasFields (instrument.labels ++ sound)
  /-- No unit writes anything in place of what arrives at it. -/
  merged :
    ∀ sinks before id emission after,
      instrument.graph.reduce () sinks = before ++ (id, emission) :: after →
        ∃ unit arriving,
          instrument.graph.unit? id = some unit ∧
            arriving =
              instrument.graph.connections (instrument.graph.schedule sinks) before id unit ∧
            emission = unit.compile arriving ∧
            unit.MergesAll arriving

section Storable

variable {instrument : Instrument} (storable : instrument.graph.Storable)

include storable

/-- Only documents of the forms of its inputs arrive at a module, in every reduction. -/
theorem formed_of_step
    {sinks : List ModuleId}
    {before after : Emissions}
    {id : ModuleId}
    {emission : Emission}
    (splits : instrument.graph.reduce () sinks = before ++ (id, emission) :: after) :
    ∃ unit arriving,
      instrument.graph.unit? id = some unit ∧
        arriving =
          instrument.graph.connections (instrument.graph.schedule sinks) before id unit ∧
        emission = unit.compile arriving ∧
        ∀ socket ∈ UnitLike.inputs unit,
          ∀ document ∈ arriving.documents socket.name, socket.signal.Form document := by
  refine Graph.forms_of_step storable.wellPatched ?_ splits
  intro id unit arriving found formed name signal document isOutput compiled
  exact InstrumentUnit.form_of_formed formed (storable.unit_tuned found) isOutput compiled

theorem followsGrammar_of_storable : instrument.FollowsGrammar where
  compiled document isCompiled := by
    obtain ⟨output, isOutput, rest⟩ := Option.bind_eq_some_iff.mp isCompiled
    obtain ⟨emission, emitted, labelled⟩ := Option.bind_eq_some_iff.mp rest
    obtain ⟨sound, isSound, done⟩ := Option.bind_eq_some_iff.mp labelled
    obtain rfl : instrument.label sound = document := Option.some.inj done
    obtain ⟨before, after, splits⟩ := List.append_of_mem (Emissions.mem_of_get? emitted)
    obtain ⟨unit, arriving, found, _, rfl, formed⟩ := formed_of_step storable splits
    obtain rfl : unit = .output := by
      obtain ⟨other, sameFound, isKind⟩ := Graph.unit?_of_findKind? storable.numbered isOutput
      rw [found, Option.some.injEq] at sameFound
      exact InstrumentUnit.eq_output_of_kind (sameFound ▸ isKind)
    have resolved : arriving.resolve? "IN" = some sound := by
      rw [InstrumentUnit.compile] at isSound
      cases arrived : arriving.resolve? "IN" with
      | none =>
          rw [arrived] at isSound
          cases isSound
      | some content =>
          rw [arrived] at isSound
          exact isSound
    have whole : sound.OneOrCombined IsAudio :=
      oneOrCombined_of_resolve? (formed (.input "IN" .audio) List.mem_cons_self) resolved
    obtain ⟨key, body, rfl, isKey⟩ := whole.exists_key fun _ => IsAudio.isSingle
    refine ⟨output, _, isOutput, ?_, whole, instrument.hasFields_label isKey body⟩
    rw [emitted, InstrumentUnit.compile, resolved]
    rfl
  merged sinks before id emission after splits := by
    obtain ⟨unit, arriving, found, isArriving, isCompiled, formed⟩ :=
      formed_of_step storable splits
    exact ⟨unit, arriving, found, isArriving, isCompiled,
      InstrumentUnit.mergesAll_of_formed formed⟩

end Storable

/-- Every instrument that can come about compiles to a document of the grammar, if to any. -/
theorem followsGrammar_of_reachable
    {instrument : Instrument}
    (reachable : instrument.Reachable) :
    instrument.FollowsGrammar :=
  followsGrammar_of_storable reachable.storable

/--
A sine at two pitches that are derived from each other, with a sample before an
echo that hears itself.
-/
def tangled : List (Operation InstrumentUnit) :=
  [.add (.ofWaveform .sine) .origin,
    .add (.transpose Transpose.dials) .origin,
    .add (.transpose Transpose.dials) .origin,
    .add (.ofMode .delay) .origin,
    .add (.wav Sample.unset Generator.dials) .origin,
    .connect ⟨0, "FREQ"⟩ ⟨3, "FREQ IN"⟩,
    .connect ⟨3, "FREQ"⟩ ⟨4, "FREQ IN"⟩,
    .connect ⟨4, "FREQ"⟩ ⟨3, "FREQ IN"⟩,
    .connect ⟨3, "FREQ"⟩ ⟨2, "FREQ"⟩,
    .connect ⟨4, "FREQ"⟩ ⟨2, "FREQ"⟩,
    .connect ⟨2, "OUT"⟩ ⟨5, "IN"⟩,
    .connect ⟨6, "OUT"⟩ ⟨5, "IN"⟩,
    .connect ⟨5, "OUT"⟩ ⟨5, "IN"⟩,
    .connect ⟨5, "OUT"⟩ ⟨1, "IN"⟩]

theorem followsGrammar_of_reachable_tangled :
    let instrument : Instrument := ⟨some "bell", some 2, Instrument.new.graph.run tangled⟩
    instrument.FollowsGrammar ∧
      ∃ document sound,
        instrument.compile? = some document ∧
          OneOrCombined IsAudio (.object sound) ∧
          document.HasFields ([("index", .natural 2), ("name", .text "bell")] ++ sound) := by
  intro instrument
  have reachable : instrument.Reachable :=
    reachable_run (Operation.drawn_of_isPlain (by decide +kernel)) _ _
  have follows := followsGrammar_of_reachable reachable
  have isCompiled : instrument.compile?.isSome := by
    decide +kernel
  obtain ⟨document, isDocument⟩ := Option.isSome_iff_exists.mp isCompiled
  obtain ⟨_, sound, _, _, whole, hasFields⟩ := follows.compiled document isDocument
  exact ⟨follows, document, sound, isDocument, whole, hasFields⟩

end Instrument

end SynthGraph
