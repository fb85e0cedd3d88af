import SynthGraph.Proofs.Definition.Keys
import SynthGraph.Proofs.Definition.Unpitched
import SynthGraph.Proofs.Number.ReadBack

namespace SynthGraph

/-!
# Reading emitted documents

The numbers that audio units write are read back as they were.  Hence every
document that an audio unit emits is read, whatever else stands beside its key,
as a definition whose audio is the document without its pitches
(`Document.Emitted.readAs`).
-/

namespace Definition

open Document

section Bodies

/-- A number in a range, read back into the range, is written as before. -/
theorem ranged_of_written
    {declared dials : Dials}
    (turned : Dials.Turned declared dials)
    (areFinite : dials.AreFinite)
    (idsNodup : (declared.map Dial.id).Nodup)
    {dial : Dial}
    (member : dial ∈ declared)
    {body : Document}
    (written : body.field? dial.id = some (.number (Dials.value dials dial.id)))
    (absent : Double) :
    body.ranged dial.id dial.least dial.greatest absent =
      (dial.id, .number (Dials.value dials dial.id)) := by
  obtain ⟨⟨turnedDial, isThere, _, sameValue⟩, inRange⟩ := turned.value_mem idsNodup member
  obtain ⟨read, isRead, sameNumber, staysInRange⟩ :=
    exists_number? (sameValue ▸ areFinite turnedDial isThere)
  have numberField : body.numberField? dial.id = some read := by
    rw [numberField?, written]
    exact isRead
  have kept : Dial.clamp ⟨dial.id, dial.least, dial.greatest, absent⟩ read = read :=
    staysInRange ⟨dial.id, dial.least, dial.greatest, absent⟩ inRange
  rw [ranged, numberField, Option.getD_some, kept, sameNumber]

theorem get?_dialFields
    (dials : Dials)
    {ids : List String}
    (idsNodup : ids.Nodup)
    {id : String}
    (isWritten : id ∈ ids) :
    Entries.get? id (Generator.dialFields dials ids) = some (.number (Dials.value dials id)) := by
  refine Entries.get?_ofList ?_ (List.mem_map_of_mem isWritten)
  rw [List.map_map]
  simpa [Function.comp_def] using idsNodup

/-- The pitch of a generator stands beside its written dials. -/
theorem get?_body
    (dials : Dials)
    (connections : Connections)
    {id : String}
    (isWritten : id ∈ Generator.writtenDials) :
    Entries.get? id (Generator.body dials connections) =
      some (.number (Dials.value dials id)) := by
  have written := get?_dialFields dials (by decide) isWritten
  have notPitch : ∀ id ∈ Generator.writtenDials, id ≠ "pitch" ∧ id ≠ "auto_pitch" := by
    decide
  obtain ⟨notDial, notAutomatic⟩ := notPitch id isWritten
  unfold Generator.body
  split
  · split
    · rw [Entries.get?_insert_of_ne notAutomatic, written]
    · exact written
  · rw [Entries.get?_insert_of_ne notDial, written]

variable {dials : Dials} (areFinite : dials.AreFinite)

include areFinite

/-- The dials of a generator are read back from its body. -/
theorem loudness_body
    (turned : Dials.Turned Generator.dials dials)
    (connections : Connections) :
    (object (Generator.body dials connections)).loudness =
      Generator.dialFields dials Generator.writtenDials := by
  have idsNodup := Generator.declarable_dials.ids_nodup
  have each (dial : Dial) (member : dial ∈ Generator.dials)
      (isWritten : dial.id ∈ Generator.writtenDials) (absent : Double) :
      (object (Generator.body dials connections)).ranged dial.id dial.least dial.greatest absent =
        (dial.id, .number (Dials.value dials dial.id)) := by
    apply ranged_of_written turned areFinite idsNodup member
    exact get?_body dials connections isWritten
  have gain := each ⟨"gain", 0, 4, 1⟩ (by simp [Generator.dials]) (by decide) 1
  have panning := each ⟨"panning", 0, 1, 0.5⟩ (by simp [Generator.dials]) (by decide) 0.5
  have attack := each ⟨"attack", 0, 10, 0.1⟩ (by simp [Generator.dials]) (by decide) 0
  have decay := each ⟨"decay", 0, 10, 0.1⟩ (by simp [Generator.dials]) (by decide) 0
  have sustain := each ⟨"sustain", 0, 1, 0.8⟩ (by simp [Generator.dials]) (by decide) 0
  have release := each ⟨"release", 0, 10, 0.1⟩ (by simp [Generator.dials]) (by decide) 0
  rw [loudness, gain, panning, attack, decay, sustain, release]
  rfl

/-- A sample player is read back from its body. -/
theorem player_body
    (turned : Dials.Turned Generator.dials dials)
    {sample : Sample}
    (isFinite : sample.basePitch.finite?.isSome) :
    (record
        [("file", .text sample.file),
          ("gain", .number (Dials.value dials "gain")),
          ("pitched", .bool sample.pitched),
          ("base_pitch", .number sample.basePitch)]).player =
      sample.compile dials := by
  generalize whole :
    record
        [("file", .text sample.file),
          ("gain", .number (Dials.value dials "gain")),
          ("pitched", .bool sample.pitched),
          ("base_pitch", .number sample.basePitch)] = body
  have isField (name : String) (value : Document)
      (member :
        (name, value) ∈
          [("file", text sample.file),
            ("gain", number (Dials.value dials "gain")),
            ("pitched", bool sample.pitched),
            ("base_pitch", number sample.basePitch)]) :
      body.field? name = some value := by
    rw [← whole]
    exact Entries.get?_ofList (by simp) member
  have gain : body.ranged "gain" 0 4 1 = ("gain", .number (Dials.value dials "gain")) :=
    ranged_of_written turned areFinite Generator.declarable_dials.ids_nodup
      (show ⟨"gain", 0, 4, 1⟩ ∈ Generator.dials by simp [Generator.dials])
      (isField "gain" _ (by simp)) 1
  obtain ⟨read, isRead, sameNumber, _⟩ := exists_number? isFinite
  have file := isField "file" (.text sample.file) (by simp)
  have pitched := isField "pitched" (.bool sample.pitched) (by simp)
  have basePitch := isField "base_pitch" (.number sample.basePitch) (by simp)
  simp only [player, file, gain, pitched, numberField?, basePitch, Option.bind_some, isRead,
    Option.getD_some, sameNumber, text?, bool?]
  rfl

/-- The parameters of a filter are read back from its body. -/
theorem filter?_body
    {mode : FilterMode}
    (turned : Dials.Turned mode.dials dials)
    {body : Document}
    (present : body.present? mode.key = some (object (Filter.parameters dials)))
    (absent : ∀ other ∈ modesByKey, other ≠ mode → body.present? other.key = none) :
    ∃ readDials,
      filter? body = .ok (mode, readDials) ∧
        Filter.parameters readDials = Filter.parameters dials := by
  have isRead : filter? body = .ok (readFilter mode (object (Filter.parameters dials))) := by
    have found :
        (modesByKey.findSome? fun mode => (body.present? mode.key).map (readFilter mode)) =
          some (readFilter mode (object (Filter.parameters dials))) := by
      cases mode <;>
        simp (disch := decide) only [modesByKey, List.findSome?_cons, absent, present,
          Option.map_none, Option.map_some]
    rw [filter?, found]
  refine ⟨_, isRead, ?_⟩
  have declarable := mode.declarable_dials
  rw [foldl_readDial _ declarable.ids_nodup, parameters_readInto _ declarable.inRange]
  have idsNodup : (dials.map Dial.id).Nodup := turned.ids ▸ declarable.ids_nodup
  have isField (id : String) (member : id ∈ dials.map Dial.id) :
      Entries.get? id (Filter.parameters dials) = some (.number (Dials.value dials id)) := by
    obtain ⟨dial, isThere, rfl⟩ := List.mem_map.mp member
    rw [Dials.value_of_mem idsNodup isThere]
    refine Entries.get?_ofList ?_ (List.mem_map_of_mem isThere)
    rw [List.map_map]
    exact idsNodup
  have written (dial : Dial) (member : dial ∈ mode.dials) :
      (object (Filter.parameters dials)).ranged dial.id dial.least dial.greatest dial.value =
        (dial.id, .number (Dials.value dials dial.id)) := by
    apply ranged_of_written turned areFinite declarable.ids_nodup member
    apply isField
    rw [turned.ids]
    exact List.mem_map_of_mem member
  have sameIds := congrArg (List.map fun id => (id, number (Dials.value dials id))) turned.ids
  simp only [List.map_map] at sameIds
  rw [List.map_congr_left written, Filter.parameters]
  refine congrArg Entries.ofList (sameIds.symm.trans ?_)
  apply List.map_congr_left
  intro dial member
  rw [Function.comp_apply, Dials.value_of_mem idsNodup member]

end Bodies

end Definition

theorem FilterMode.ofKey?_key
    (mode : FilterMode) :
    ofKey? mode.key = some mode := by
  cases mode <;> rfl

theorem FilterMode.key_injective : Function.Injective FilterMode.key := by
  intro first second same
  have named := ofKey?_key first
  rw [same, ofKey?_key, Option.some.injEq] at named
  exact named.symm

namespace Document

/-- The documents of audio units whose numbers are finite; a filter takes up one at least. -/
inductive Emitted : Document → Prop where
  | wave {waveform : Waveform} {dials : Dials} (connections : Connections) :
      Dials.Turned Generator.dials dials →
      dials.AreFinite →
      Emitted (Generator.compile waveform dials connections)
  | sample {sample : Sample} {dials : Dials} :
      Dials.Turned Generator.dials dials →
      dials.AreFinite →
      sample.basePitch.finite?.isSome →
      Emitted (sample.compile dials)
  | filter {mode : FilterMode} {dials : Dials} {documents : List Document} :
      Dials.Turned mode.dials dials →
      dials.AreFinite →
      documents ≠ [] →
      (∀ document ∈ documents, Emitted document) →
      Emitted (.keyed "filter" (Filter.body mode dials (resolve? documents)))

/-- Whether a document with one key is read as some sounds, also when more stands beside the key. -/
def ReadAs (document : Document) (sounds : List Document) : Prop :=
  ∃ key value,
    document = .object [(key, value)] ∧
      key ∈ soundKeys ∧
      value.nonNull? = some value ∧
      ∀ other : Document, other.Tells key value →
        ∃ definition,
          Definition.ofDocument other = .ok definition ∧ definition.documents none = sounds

theorem ReadAs.exists_definition
    {document : Document}
    {sounds : List Document}
    (readAs : document.ReadAs sounds) :
    ∃ definition,
      Definition.ofDocument document = .ok definition ∧ definition.documents none = sounds := by
  obtain ⟨key, value, rfl, _, nonNull, reads⟩ := readAs
  exact reads _ (tells_single nonNull)

section Several

variable
  {documents : List Document}
  (each : ∀ document ∈ documents, document.ReadAs [document.unpitched])

include each

theorem exists_definitions :
    ∃ definitions,
      Definition.ofDocuments documents = .ok definitions ∧
        Definition.documentsAll none definitions = documents.map unpitched := by
  induction documents with
  | nil =>
      exact ⟨[], by rw [Definition.ofDocuments], rfl⟩
  | cons first rest inductionHypothesis =>
      rw [List.forall_mem_cons] at each
      obtain ⟨definition, accepted, sound⟩ := each.1.exists_definition
      obtain ⟨definitions, restAccepted, restSounds⟩ := inductionHypothesis each.2
      refine ⟨definition :: definitions, ?_, ?_⟩
      · rw [Definition.ofDocuments]
        simp only [accepted, restAccepted, bind, Except.bind]
        rfl
      · rw [Definition.documentsAll, sound, restSounds, List.map_cons, List.singleton_append]

/-- Several documents in one are read as all of their sounds. -/
theorem readAs_resolve?
    (nonempty : documents ≠ []) :
    ∃ whole,
      resolve? documents = some whole ∧ whole.ReadAs (documents.map unpitched) := by
  match documents with
  | [] =>
      exact absurd rfl nonempty
  | [document] =>
      exact ⟨document, rfl, each document (List.mem_singleton_self document)⟩
  | first :: second :: rest =>
      obtain ⟨definitions, accepted, sounds⟩ := exists_definitions each
      refine ⟨combined (first :: second :: rest), rfl, "combined", _, rfl, by decide, rfl, ?_⟩
      intro other tells
      exact ⟨_, Definition.ofDocument_of_combined tells accepted, sounds⟩

end Several

theorem readAs_wave
    (waveform : Waveform)
    {dials : Dials}
    (connections : Connections)
    (turned : Dials.Turned Generator.dials dials)
    (areFinite : dials.AreFinite) :
    (Generator.compile waveform dials connections).ReadAs
      [(Generator.compile waveform dials connections).unpitched] := by
  have isWave : waveform.documentKey ∈ waveKeys.map Prod.fst := by
    cases waveform <;> decide
  refine ⟨waveform.documentKey, _, rfl, by simp [soundKeys, isWave], rfl, ?_⟩
  intro other tells
  have isUnit := Definition.generator?_of_wave tells
  refine ⟨_, Definition.ofDocument_of_generator tells (by simp [isWave]) isUnit, ?_⟩
  rw [Definition.documents, Definition.sounded_readGenerator, Generator.unpitched_compile, wave,
    Definition.loudness_body areFinite turned connections]

theorem readAs_sample
    {sample : Sample}
    {dials : Dials}
    (turned : Dials.Turned Generator.dials dials)
    (areFinite : dials.AreFinite)
    (isFinite : sample.basePitch.finite?.isSome) :
    (sample.compile dials).ReadAs [(sample.compile dials).unpitched] := by
  refine ⟨Sample.kind, _, rfl, by decide, rfl, ?_⟩
  intro other tells
  have isUnit := Definition.generator?_of_sample tells
  refine ⟨_, Definition.ofDocument_of_generator tells (by decide) isUnit, ?_⟩
  rw [Sample.unpitched_compile, Definition.documents]
  exact congrArg (fun document => [document]) (Definition.player_body areFinite turned isFinite)

theorem key_notMem_soundKeys
    (mode : FilterMode) :
    mode.key ∉ soundKeys := by
  cases mode <;> decide

/-- A filter names its own mode and no other, whatever sound it takes up. -/
theorem present?_mode
    {key : String}
    (isSound : key ∈ soundKeys)
    (value : Document)
    (mode other : FilterMode)
    (parameters : Fields) :
    (object (Entries.insert key value [(mode.key, object parameters)])).present? other.key =
      if other = mode then some (object parameters) else none := by
  have otherKey : other.key ≠ key := by
    rintro rfl
    exact key_notMem_soundKeys other isSound
  have sameKey : mode.key = other.key ↔ other = mode :=
    FilterMode.key_injective.eq_iff.trans eq_comm
  rw [present?, field?, Entries.get?_insert_of_ne otherKey]
  by_cases same : other = mode <;> simp [Entries.get?, sameKey, same, nonNull?]

/-- What a filter takes up does not hide its mode, and its mode does not hide what it takes up. -/
theorem readAs_filter
    {mode : FilterMode}
    {dials : Dials}
    {documents : List Document}
    (turned : Dials.Turned mode.dials dials)
    (areFinite : dials.AreFinite)
    (nonempty : documents ≠ [])
    (each : ∀ document ∈ documents, document.ReadAs [document.unpitched]) :
    (keyed "filter" (Filter.body mode dials (resolve? documents))).ReadAs
      [(keyed "filter" (Filter.body mode dials (resolve? documents))).unpitched] := by
  refine ⟨"filter", _, rfl, by decide, rfl, ?_⟩
  intro other tells
  obtain ⟨whole, isWhole, key, value, rfl, isSound, nonNull, reads⟩ :=
    readAs_resolve? each nonempty
  have body :
      Filter.body mode dials (resolve? documents) =
        Entries.insert key value [(mode.key, object (Filter.parameters dials))] := by
    rw [isWhole]
    rfl
  have quiet :
      ∀ field ∈ [(mode.key, object (Filter.parameters dials))], field.1 ∉ soundKeys := by
    simpa using key_notMem_soundKeys mode
  obtain ⟨inner, accepted, sounds⟩ := reads _ (tells_insert quiet nonNull)
  -- The body is read twice: for its mode here, for its sound above.
  have named (other : FilterMode) :=
    present?_mode isSound value mode other (Filter.parameters dials)
  rw [← body] at accepted
  simp only [← body] at named
  obtain ⟨readDials, isEffect, sameParameters⟩ :=
    Definition.filter?_body areFinite turned ((named mode).trans (if_pos rfl))
      fun other _ different => (named other).trans (if_neg different)
  refine ⟨_, Definition.ofDocument_of_filter tells isEffect accepted, ?_⟩
  rw [Definition.documents, sounds, resolve?_unpitched, Filter.unpitched_keyed_body, Filter.body,
    Filter.body, sameParameters]

/-- Every emitted document is read as itself without its pitches. -/
theorem Emitted.readAs
    {document : Document}
    (emitted : document.Emitted) :
    document.ReadAs [document.unpitched] := by
  induction emitted with
  | wave connections turned areFinite =>
      exact readAs_wave _ connections turned areFinite
  | sample turned areFinite isFinite =>
      exact readAs_sample turned areFinite isFinite
  | filter turned areFinite nonempty _ inductionHypothesis =>
      exact readAs_filter turned areFinite nonempty inductionHypothesis

end Document

end SynthGraph
