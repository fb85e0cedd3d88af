import SynthGraph.Proofs.Definition.Rewriting

namespace SynthGraph

/-!
# Reading documents by their keys

A document is read by the first of its keys that says what it sounds like, so a
document with one such key is read by it, whatever else stands beside it.
-/

namespace Document

section Keys

/-- The keys that say what a document sounds like. -/
def soundKeys : List String :=
  ["combined", "panning", "transpose", "wav"] ++ waveKeys.map Prod.fst ++ ["vocoder", "filter"]

/-- Whether a document says one thing about its sound. -/
structure Tells (document : Document) (key : String) (value : Document) : Prop where
  present : document.present? key = some value
  absent : ∀ other ∈ soundKeys, other ≠ key → document.present? other = none

variable {key : String} {value : Document} {fields : Fields}

theorem get?_of_quiet
    (quiet : ∀ field ∈ fields, field.1 ∉ soundKeys)
    (isSound : key ∈ soundKeys) :
    Entries.get? key fields = none := by
  cases found : Entries.get? key fields with
  | none =>
      rfl
  | some value =>
      exact absurd isSound (quiet _ (Entries.mem_of_get? found))

/-- A key of a sound among other keys is the one that counts. -/
theorem tells_insert
    (quiet : ∀ field ∈ fields, field.1 ∉ soundKeys)
    (nonNull : value.nonNull? = some value) :
    (object (Entries.insert key value fields)).Tells key value where
  present := by
    simp [present?, field?, Entries.get?_insert_self, nonNull]
  absent other isSound different := by
    simp [present?, field?, Entries.get?_insert_of_ne different, get?_of_quiet quiet isSound]

theorem tells_single
    (nonNull : value.nonNull? = some value) :
    (object [(key, value)]).Tells key value := by
  have quiet : ∀ field ∈ ([] : Fields), field.1 ∉ soundKeys := by
    simp
  exact tells_insert quiet nonNull

/-- Another key that is not of a sound may stand beside. -/
theorem Tells.insert
    (tells : (object fields).Tells key value)
    (isSound : key ∈ soundKeys)
    {name : String}
    (quiet : name ∉ soundKeys)
    (added : Document) :
    (object (Entries.insert name added fields)).Tells key value := by
  have kept (other : String) (otherSound : other ∈ soundKeys) :
      (object (Entries.insert name added fields)).present? other =
        (object fields).present? other := by
    have different : other ≠ name := by
      rintro rfl
      exact quiet otherSound
    simp [present?, field?, Entries.get?_insert_of_ne different]
  constructor
  · rw [kept key isSound]
    exact tells.present
  · intro other otherSound different
    rw [kept other otherSound]
    exact tells.absent other otherSound different

end Keys

end Document

namespace Definition

open Document

section Keys

variable {document body : Document}

theorem ofDocument_of_combined
    {parts : List Document}
    {definitions : List Definition}
    (tells : document.Tells "combined" (.list parts))
    (accepted : ofDocuments parts = .ok definitions) :
    ofDocument document = .ok (.combined definitions) := by
  rw [ofDocument_eq, tells.present]
  simp only [accepted]
  rfl

/-- The keys before that of a waveform are looked for in vain. -/
theorem generator?_of_wave
    {waveform : Waveform}
    (tells : document.Tells waveform.documentKey body) :
    generator? document = some (readGenerator waveform body) := by
  have present := tells.present
  cases waveform <;>
    simp (disch := decide) only [generator?, waveformKeys, List.findSome?_cons, tells.absent,
      Option.map_none] <;>
    simp only [Waveform.documentKey, Waveform.kind] at present <;>
    simp only [present, Option.map_some]

theorem generator?_of_sample
    (tells : document.Tells Sample.kind body) :
    generator? document =
      some (.wav (readSample body) (readEnvelope body Generator.dials)) := by
  simp only [generator?, tells.present]

theorem ofDocument_of_generator
    {key : String}
    {unit : InstrumentUnit}
    (tells : document.Tells key body)
    (isSource : key ∈ "wav" :: waveKeys.map Prod.fst)
    (isUnit : generator? document = some unit) :
    ofDocument document = .ok (.generator unit) := by
  have notSource : ∀ other ∈ "wav" :: waveKeys.map Prod.fst,
      other ≠ "combined" ∧ other ≠ Panning.kind ∧ other ≠ Transpose.kind := by
    decide
  obtain ⟨notCombined, notPanning, notTranspose⟩ := notSource key isSource
  rw [ofDocument_eq, tells.absent "combined" (by decide) notCombined.symm,
    tells.absent Panning.kind (by decide) notPanning.symm,
    tells.absent Transpose.kind (by decide) notTranspose.symm, isUnit]

theorem ofDocument_of_filter
    {mode : FilterMode}
    {dials : Dials}
    {inner : Definition}
    (tells : document.Tells "filter" body)
    (isEffect : filter? body = .ok (mode, dials))
    (accepted : ofDocument body = .ok inner) :
    ofDocument document = .ok (.filter mode dials inner) := by
  have notSource : generator? document = none := by
    simp (disch := decide) only [generator?, waveformKeys, List.findSome?_cons, tells.absent,
      Option.map_none, List.findSome?_nil]
  simp (disch := decide) only [ofDocument_eq document, tells.absent, tells.present, notSource,
    isEffect, accepted, bind, Except.bind]
  rfl

end Keys

end Definition

end SynthGraph
