import SynthGraph.Proofs.Definition.Emitted

namespace SynthGraph.Document

/-!
# The grammar of instrument documents

The sounds and pitches of instruments are objects of one key.  Where several
arrive they are combined in a list, and a list never stands in another.  Filters
and shifts of pitch take up the fields of what they act on beside their own
parameters; since no parameter goes by the key of a sound, nothing is lost
(`MergesAll`).
-/

/-- Whether a document is an object of exactly the given fields. -/
def HasFields (document : Document) (fields : Fields) : Prop :=
  ∃ ordered, document = .object ordered ∧ Entries.Sorted ordered ∧ ordered.Perm fields

/-- One document, or several of them combined in a list. -/
inductive OneOrCombined (single : Document → Prop) : Document → Prop where
  | one {document : Document} : single document → OneOrCombined single document
  | combined {documents : List Document} :
      2 ≤ documents.length →
      (∀ document ∈ documents, single document) →
      OneOrCombined single (.object [("combined", .list documents)])

/-- The fields of what arrives at a unit: none, or those of one document or of several combined. -/
inductive Upstream (single : Document → Prop) : Fields → Prop where
  | nothing : Upstream single []
  | present {fields : Fields} : OneOrCombined single (.object fields) → Upstream single fields

/-- The played pitch, shifted once or several times. -/
inductive IsPitch : Document → Prop where
  | transpose {body : Document} {upstream : Fields} (semitones : Double) :
      Upstream IsPitch upstream →
      body.HasFields (("semitones", .number semitones) :: upstream) →
      IsPitch (.object [("transpose", body)])

/-- The pitch of a wave: the played one, a fixed one, or one that is derived from the played one. -/
inductive PitchField : Fields → Prop where
  | played : PitchField []
  | fixed (pitch : Double) : PitchField [("pitch", .number pitch)]
  | automatic {pitch : Document} :
      OneOrCombined IsPitch pitch → PitchField [("auto_pitch", pitch)]

/-- The sounds of instruments. -/
inductive IsAudio : Document → Prop where
  | wave {body : Document} {pitch : Fields} (waveform : Waveform) (values : String → Double) :
      PitchField pitch →
      body.HasFields
        (["gain", "panning", "attack", "decay", "sustain", "release"].map
            (fun id => (id, .number (values id))) ++
          pitch) →
      IsAudio (.object [(waveform.documentKey, body)])
  | sample
      {body : Document}
      (file : String)
      (gain : Double)
      (pitched : Bool)
      (basePitch : Double) :
      body.HasFields
        [("file", .text file),
          ("gain", .number gain),
          ("pitched", .bool pitched),
          ("base_pitch", .number basePitch)] →
      IsAudio (.object [("wav", body)])
  | filter
      {body parameters : Document}
      {upstream : Fields}
      (mode : FilterMode)
      (values : String → Double) :
      parameters.HasFields (mode.dials.map fun dial => (dial.id, .number (values dial.id))) →
      Upstream IsAudio upstream →
      body.HasFields ((mode.key, parameters) :: upstream) →
      IsAudio (.object [("filter", body)])

theorem hasFields_record
    {fields : Fields}
    (namesNodup : (fields.map Prod.fst).Nodup) :
    (record fields).HasFields fields :=
  ⟨_, rfl, Entries.sorted_ofList fields, Entries.perm_ofList namesNodup⟩

theorem HasFields.perm
    {document : Document}
    {fields others : Fields}
    (hasFields : document.HasFields fields)
    (permuted : fields.Perm others) :
    document.HasFields others := by
  obtain ⟨ordered, isObject, sorted, same⟩ := hasFields
  exact ⟨ordered, isObject, sorted, same.trans permuted⟩

/-- Another field with a new name stands beside the fields of an object. -/
theorem HasFields.insert
    {fields ordered : Fields}
    (hasFields : (object ordered).HasFields fields)
    {name : String}
    (new : name ∉ fields.map Prod.fst)
    (value : Document) :
    (object (Entries.insert name value ordered)).HasFields ((name, value) :: fields) := by
  obtain ⟨same, isObject, sorted, permuted⟩ := hasFields
  cases isObject
  have notPresent : name ∉ ordered.map Prod.fst := by
    rw [(permuted.map Prod.fst).mem_iff]
    exact new
  exact ⟨_, rfl, Entries.sorted_insert name value sorted,
    (Entries.perm_insert notPresent value).trans (permuted.cons _)⟩

/-- Only no documents are none. -/
theorem resolve?_eq_none_iff
    {documents : List Document} :
    resolve? documents = none ↔ documents = [] := by
  match documents with
  | [] | [_] | _ :: _ :: _ =>
      simp [resolve?]

/-- The fields that an optional document adds to others. -/
def addedFields : Option Document → Fields
  | some (object fields) => fields
  | _ => []

/-- Whether the fields of a document are added to others, none in place of another. -/
def MergesAll (own : Fields) (source : Option Document) : Prop :=
  (object (own.merge? source)).HasFields (own ++ addedFields source)

theorem merge?_eq
    (own : Fields)
    (source : Option Document) :
    own.merge? source = Entries.insertAll own (addedFields source) := by
  rcases source with _ | document
  · rfl
  · cases document <;> rfl

/-- Whether a document is an object whose one key is that of a single sound. -/
def IsSingle (document : Document) : Prop :=
  ∃ key body, document = .object [(key, body)] ∧ key ∈ soundKeys ∧ key ≠ "combined"

theorem IsPitch.isSingle
    {document : Document}
    (isPitch : document.IsPitch) :
    document.IsSingle := by
  cases isPitch with
  | transpose semitones _ _ =>
      exact ⟨_, _, rfl, by decide, by decide⟩

theorem IsAudio.isSingle
    {document : Document}
    (isAudio : document.IsAudio) :
    document.IsSingle := by
  cases isAudio with
  | wave waveform =>
      refine ⟨_, _, rfl, ?_⟩
      cases waveform <;> decide
  | sample | filter =>
      exact ⟨_, _, rfl, by decide, by decide⟩

section Several

variable {single : Document → Prop} (areSingle : ∀ document, single document → document.IsSingle)

include areSingle

theorem OneOrCombined.exists_key
    {document : Document}
    (whole : document.OneOrCombined single) :
    ∃ key body, document = .object [(key, body)] ∧ key ∈ soundKeys := by
  cases whole with
  | one isSingle =>
      obtain ⟨key, body, isObject, isSound, _⟩ := areSingle _ isSingle
      exact ⟨key, body, isObject, isSound⟩
  | combined =>
      exact ⟨_, _, rfl, by decide⟩

theorem Upstream.eq_nil_or_singleton
    {fields : Fields}
    (upstream : Upstream single fields) :
    fields = [] ∨ ∃ key body, fields = [(key, body)] ∧ key ∈ soundKeys := by
  cases upstream with
  | nothing =>
      exact Or.inl rfl
  | present whole =>
      obtain ⟨key, body, isObject, isSound⟩ := whole.exists_key areSingle
      cases isObject
      exact Or.inr ⟨key, body, rfl, isSound⟩

variable {documents : List Document} (each : ∀ document ∈ documents, single document)

include each

omit areSingle in
theorem oneOrCombined_of_resolve?
    {whole : Document}
    (isWhole : resolve? documents = some whole) :
    whole.OneOrCombined single := by
  match documents with
  | [] =>
      cases isWhole
  | [document] =>
      cases isWhole
      exact .one (each _ List.mem_cons_self)
  | first :: second :: rest =>
      cases isWhole
      exact .combined (by simp) each

theorem upstream_resolve? :
    Upstream single (addedFields (resolve? documents)) := by
  cases isWhole : resolve? documents with
  | none =>
      exact .nothing
  | some whole =>
      have isUpstream := oneOrCombined_of_resolve? each isWhole
      obtain ⟨key, body, rfl, _⟩ := isUpstream.exists_key areSingle
      exact .present isUpstream

/-- Parameters that do not go by the key of a sound stand beside what arrives. -/
theorem mergesAll_resolve?
    {own : Fields}
    (sorted : Entries.Sorted own)
    (quiet : ∀ field ∈ own, field.1 ∉ soundKeys) :
    MergesAll own (resolve? documents) := by
  have upstream := upstream_resolve? areSingle each
  have namesNodup : ((own ++ addedFields (resolve? documents)).map Prod.fst).Nodup := by
    have ownNodup := Entries.names_nodup sorted
    rcases upstream.eq_nil_or_singleton areSingle with isEmpty | ⟨key, body, isKey, isSound⟩
    · rw [isEmpty, List.append_nil]
      exact ownNodup
    · have new : key ∉ own.map Prod.fst := by
        intro member
        obtain ⟨field, isField, rfl⟩ := List.mem_map.mp member
        exact quiet field isField isSound
      rw [isKey, List.map_append, List.map_singleton, List.nodup_append_comm]
      exact List.nodup_cons.mpr ⟨new, ownNodup⟩
  refine ⟨own.merge? (resolve? documents), rfl, ?_, ?_⟩
  · rw [merge?_eq]
    exact Entries.sorted_insertAll _ sorted
  · rw [merge?_eq]
    exact Entries.perm_insertAll namesNodup

theorem mergesAll_parameter
    {name : String}
    (quiet : name ∉ soundKeys)
    (value : Document) :
    MergesAll [(name, value)] (resolve? documents) :=
  mergesAll_resolve? areSingle each (by simp [Entries.Sorted]) (by simpa using quiet)

end Several

end SynthGraph.Document
