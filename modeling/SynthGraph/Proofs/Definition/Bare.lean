import SynthGraph.Proofs.Definition.Emitted
import SynthGraph.Proofs.Definition.Offences

namespace SynthGraph

/-!
# What offends in emitted documents

The documents that audio units emit have one key, which says what they sound
like, also when more stands beside it.  Nothing offends in the document of a
sound source, and in that of a filter just what offends in the sounds that it
takes up.  A filter that takes up no sound has a body without a form, and that
body offends (`offences_filter`).
-/

namespace Document

/-- The first key that says something is the only one. -/
theorem Tells.form?
    {document value : Document}
    {key : String}
    {form : Form}
    (tells : document.Tells key value)
    (isForm : (key, form) ∈ formKeys) :
    document.form? = some (form, value) := by
  have areSounds : ∀ entry ∈ formKeys, entry.1 ∈ soundKeys := by
    decide
  have keysNodup : (formKeys.map Prod.fst).Nodup := by
    decide
  have isSome : document.form?.isSome := by
    rw [Document.form?, List.isSome_findSome?, List.any_eq_true]
    exact ⟨_, isForm, by simp [tells.present]⟩
  obtain ⟨found, isFound⟩ := Option.isSome_iff_exists.mp isSome
  obtain ⟨entry, isEntry, isValue⟩ := List.exists_of_findSome?_eq_some isFound
  obtain ⟨present, isPresent, rfl⟩ := Option.map_eq_some_iff.mp isValue
  have sameKey : entry.1 = key := by
    by_contra different
    rw [tells.absent entry.1 (areSounds entry isEntry) different] at isPresent
    cases isPresent
  obtain rfl : entry = (key, form) := List.inj_on_of_nodup_map keysNodup isEntry isForm sameKey
  rw [isFound, Option.some.inj (isPresent.symm.trans tells.present)]

/-- A document whose one key says what it sounds like. -/
def IsSound (document : Document) : Prop :=
  ∃ key value,
    document = .object [(key, value)] ∧ key ∈ soundKeys ∧ value.nonNull? = some value

/-- What stands beside the key of a sound does not offend. -/
theorem Tells.offences
    {document value : Document}
    {key : String}
    (tells : document.Tells key value)
    (isSound : key ∈ soundKeys)
    (nonNull : value.nonNull? = some value) :
    document.offences = (object [(key, value)]).offences := by
  have areForms : ∀ key ∈ soundKeys, key ∈ formKeys.map Prod.fst := by
    decide
  obtain ⟨⟨_, form⟩, isForm, rfl⟩ := List.mem_map.mp (areForms key isSound)
  rw [offences_eq, offences_eq, tells.form? isForm, (tells_single nonNull).form? isForm]

section Resolved

variable {documents : List Document} (areSounds : ∀ document ∈ documents, document.IsSound)

include areSounds

/-- Several sounds in one offend as each of them does. -/
theorem exists_resolved
    (nonempty : documents ≠ []) :
    ∃ whole,
      resolve? documents = some whole ∧
        whole.IsSound ∧
        whole.offences = documents.flatMap offences := by
  match documents with
  | [] =>
      exact absurd rfl nonempty
  | [document] =>
      exact ⟨document, rfl, areSounds document (List.mem_singleton_self document), by simp⟩
  | first :: second :: rest =>
      refine ⟨combined (first :: second :: rest), rfl, ⟨_, _, rfl, by decide, rfl⟩, ?_⟩
      have tells :
          (combined (first :: second :: rest)).Tells "combined" (.list (first :: second :: rest)) :=
        tells_single rfl
      have isForm : ("combined", Form.combined) ∈ formKeys := by
        decide
      rw [offences_eq, tells.form? isForm]
      rfl

end Resolved

theorem isSound_keyed
    {key : String}
    (isSound : key ∈ soundKeys)
    (body : Fields) :
    (keyed key body).IsSound :=
  ⟨key, object body, rfl, isSound, rfl⟩

/-- Nothing offends in a sound source, whatever it says of itself. -/
theorem offences_source
    {key : String}
    (isSource : key ∈ sourceKeys)
    (body : Fields) :
    (keyed key body).offences = [] := by
  have tells : (keyed key body).Tells key (object body) := tells_single rfl
  have isForm : (key, Form.source) ∈ formKeys := by
    simp [formKeys, isSource]
  rw [offences_eq, tells.form? isForm]
  rfl

theorem documentKey_mem_sourceKeys
    (waveform : Waveform) :
    waveform.documentKey ∈ sourceKeys := by
  cases waveform <;> decide

theorem hasEffect_of_present?
    {body : Document}
    (mode : FilterMode)
    (isThere : (body.present? mode.key).isSome) :
    body.hasEffect := by
  rw [hasEffect, List.any_eq_true]
  exact ⟨mode.key, by cases mode <;> decide, isThere⟩

/-- The body of a filter that takes up no sound. -/
def bareBody (mode : FilterMode) (dials : Dials) : Document :=
  .object [(mode.key, .object (Filter.parameters dials))]

/-- A body that names an effect and no sound has no form. -/
theorem form?_bareBody
    (mode : FilterMode)
    (dials : Dials) :
    (bareBody mode dials).form? = none := by
  have quiet :
      ∀ field ∈ [(mode.key, object (Filter.parameters dials))], field.1 ∉ soundKeys := by
    simpa using key_notMem_soundKeys mode
  have areSounds : ∀ entry ∈ formKeys, entry.1 ∈ soundKeys := by
    decide
  rw [form?, List.findSome?_eq_none_iff]
  intro entry isEntry
  rw [bareBody, present?, field?, get?_of_quiet quiet (areSounds entry isEntry)]
  rfl

/-- What offends in a filter is what offends in its body. -/
theorem offences_of_filter
    {body : Fields}
    (hasEffect : (object body).hasEffect) :
    (keyed "filter" body).offences = (object body).offences := by
  have tells : (keyed "filter" body).Tells "filter" (object body) := tells_single rfl
  have isForm : ("filter", Form.filter) ∈ formKeys := by
    decide
  rw [offences_eq, tells.form? isForm]
  simp [Form.objections, Form.parts, hasEffect]

/-- In a filter offend the sounds that it takes up; if it takes up none, its body offends. -/
theorem offences_filter
    (mode : FilterMode)
    (dials : Dials)
    {documents : List Document}
    (areSounds : ∀ document ∈ documents, document.IsSound) :
    (keyed "filter" (Filter.body mode dials (resolve? documents))).offences =
      if documents = [] then
        [.unknownDefinition (bareBody mode dials)]
      else
        documents.flatMap offences := by
  split
  · rename_i isEmpty
    subst isEmpty
    have isBare : object (Filter.body mode dials (resolve? [])) = bareBody mode dials := rfl
    have hasEffect : (bareBody mode dials).hasEffect := by
      apply hasEffect_of_present? mode
      simp [present?, field?, bareBody, Entries.get?, nonNull?]
    rw [offences_of_filter (isBare ▸ hasEffect), isBare, offences_eq, form?_bareBody]
  · rename_i nonempty
    obtain ⟨whole, isWhole, ⟨key, value, rfl, isSound, nonNull⟩, offend⟩ :=
      exists_resolved areSounds nonempty
    have body :
        Filter.body mode dials (resolve? documents) =
          Entries.insert key value [(mode.key, object (Filter.parameters dials))] := by
      rw [isWhole]
      rfl
    have quiet :
        ∀ field ∈ [(mode.key, object (Filter.parameters dials))], field.1 ∉ soundKeys := by
      simpa using key_notMem_soundKeys mode
    have hasEffect : (object (Filter.body mode dials (resolve? documents))).hasEffect := by
      apply hasEffect_of_present? mode
      rw [body, present?_mode isSound, if_pos rfl]
      rfl
    rw [offences_of_filter hasEffect, body, (tells_insert quiet nonNull).offences isSound nonNull,
      offend]

end Document

end SynthGraph
