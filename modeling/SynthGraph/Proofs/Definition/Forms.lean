import SynthGraph.Proofs.Definition.Keys

namespace SynthGraph

/-!
# The forms of definitions

The first key that counts says which form a document has, and its value holds the
documents inside.  Reading a document as a definition goes by its form
(`Definition.ofDocument_eq_of_form`), and what holds of all documents is shown by
induction over the documents inside (`Document.formInduction`).
-/

namespace Document

/-- What a document says about its sound. -/
inductive Form where
  /-- Several sounds at once. -/
  | combined
  | panning
  | transpose
  | source
  /-- A sound that is left out. -/
  | omitted
  | filter
  deriving Repr, DecidableEq

/-- The keys of sound sources in the order in which they count. -/
def sourceKeys : List String :=
  ["wav", "sine", "triangle", "square", "sawtooth", "saw", "white_noise", "pulse"]

/-- The keys of definitions in the order in which they count, with what they say. -/
def formKeys : List (String × Form) :=
  [("combined", .combined), ("panning", .panning), ("transpose", .transpose)]
    ++ sourceKeys.map (fun key => (key, .source))
    ++ [("vocoder", .omitted), ("filter", .filter)]

/-- The form of a document with the value of its key: the first that is there and not null. -/
def form? (document : Document) : Option (Form × Document) :=
  formKeys.findSome? fun entry => (document.present? entry.1).map fun value => (entry.2, value)

/-- Whether the body of a filter has a key of an effect that is not null. -/
def hasEffect (body : Document) : Bool :=
  ["lpf", "hpf", "delay", "distortion", "overdrive", "flanger", "average"].any fun key =>
    (body.present? key).isSome

/-- The documents in the value of a form that are read as definitions themselves. -/
def Form.parts : Form → Document → List Document
  | combined, .list items => items
  | combined, _ => []
  | panning, body | transpose, body | filter, body => [body]
  | source, _ | omitted, _ => []

section Sizes

variable {document value part : Document} {form : Form}

theorem Form.sizeOf_parts
    (member : part ∈ form.parts value) :
    sizeOf part ≤ sizeOf value := by
  cases form with
  | combined =>
      cases value with
      | list items =>
          have isItem : part ∈ items := member
          have smaller := List.sizeOf_lt_of_mem isItem
          rw [list.sizeOf_spec]
          omega
      | _ =>
          cases member
  | panning | transpose | filter =>
      obtain rfl := List.mem_singleton.mp member
      exact Nat.le_refl _
  | source | omitted =>
      cases member

theorem sizeOf_form?
    (isForm : document.form? = some (form, value)) :
    sizeOf value < sizeOf document := by
  obtain ⟨entry, _, isValue⟩ := List.exists_of_findSome?_eq_some isForm
  obtain ⟨found, isPresent, isPair⟩ := Option.map_eq_some_iff.mp isValue
  cases isPair
  exact sizeOf_present? isPresent

theorem sizeOf_part_lt
    (isForm : document.form? = some (form, value))
    (member : part ∈ form.parts value) :
    sizeOf part < sizeOf document :=
  Nat.lt_of_le_of_lt (Form.sizeOf_parts member) (sizeOf_form? isForm)

end Sizes

/-- Induction over the documents that are read as definitions inside a document. -/
theorem formInduction
    {motive : Document → Prop}
    (step :
      ∀ document,
        (∀ form value, document.form? = some (form, value) →
          ∀ part ∈ form.parts value, motive part) →
        motive document)
    (document : Document) :
    motive document :=
  step document fun _ _ isForm part member =>
    have := sizeOf_part_lt isForm member
    formInduction step part
termination_by sizeOf document

/-- The form of a document, key by key. -/
theorem form?_eq
    (document : Document) :
    document.form? =
      match document.present? "combined" with
      | some value => some (.combined, value)
      | none =>
      match document.present? "panning" with
      | some value => some (.panning, value)
      | none =>
      match document.present? "transpose" with
      | some value => some (.transpose, value)
      | none =>
      match sourceKeys.findSome? document.present? with
      | some value => some (.source, value)
      | none =>
      match document.present? "vocoder" with
      | some value => some (.omitted, value)
      | none => (document.present? "filter").map fun value => (.filter, value) := by
  have sources :
      (sourceKeys.map fun key => (key, Form.source)).findSome?
          (fun entry => (document.present? entry.1).map fun value => (entry.2, value)) =
        (sourceKeys.findSome? document.present?).map fun value => (.source, value) := by
    rw [List.findSome?_map, Definition.map_findSome?]
    rfl
  rw [form?, formKeys, List.append_assoc, List.findSome?_append, List.findSome?_append, sources]
  simp only [List.findSome?_cons, List.findSome?_nil]
  cases document.present? "combined" with
  | some value =>
      rfl
  | none =>
      cases document.present? "panning" with
      | some value =>
          rfl
      | none =>
          cases document.present? "transpose" with
          | some value =>
              rfl
          | none =>
              cases sourceKeys.findSome? document.present? with
              | some value =>
                  rfl
              | none =>
                  cases document.present? "vocoder" with
                  | some value =>
                      rfl
                  | none =>
                      cases document.present? "filter" <;> rfl

end Document

namespace Definition

open Document

/-- A document has a sound source if it has the key of one. -/
theorem isSome_generator?
    (document : Document) :
    (generator? document).isSome = (sourceKeys.findSome? document.present?).isSome := by
  have keys : sourceKeys = Sample.kind :: waveformKeys.map Prod.fst := rfl
  rw [keys, List.findSome?_cons, generator?]
  cases document.present? Sample.kind with
  | some body =>
      rfl
  | none =>
      rw [List.findSome?_map, List.isSome_findSome?, List.isSome_findSome?]
      simp only [Option.isSome_map, Function.comp_apply]

/-- A document in the form of a sound source is one. -/
theorem exists_generator?
    {document value : Document}
    (isForm : document.form? = some (.source, value)) :
    ∃ unit, generator? document = some unit := by
  obtain ⟨⟨key, form⟩, isKey, isValue⟩ := List.exists_of_findSome?_eq_some isForm
  obtain ⟨_, isPresent, isPair⟩ := Option.map_eq_some_iff.mp isValue
  cases isPair
  have isSource : key ∈ sourceKeys := by
    simpa [formKeys] using isKey
  rw [← Option.isSome_iff_exists, isSome_generator?, List.isSome_findSome?, List.any_eq_true]
  exact ⟨key, isSource, Option.isSome_of_mem isPresent⟩

/-- A document is read as a definition by its form. -/
theorem ofDocument_eq_of_form
    (document : Document) :
    ofDocument document =
      match document.form? with
      | some (.combined, .list parts) => combined <$> ofDocuments parts
      | some (.combined, other) => .error (.unknownDefinition other)
      | some (.panning, body) => panning <$> ofDocument body
      | some (.transpose, body) => transpose (readTranspose body) <$> ofDocument body
      | some (.source, _) =>
          match generator? document with
          | some unit => .ok (generator unit)
          | none => .error (.unknownDefinition document)
      | some (.omitted, _) => .ok omitted
      | some (.filter, body) => do
          let (mode, dials) ← filter? body
          filter mode dials <$> ofDocument body
      | none => .error (.unknownDefinition document) := by
  have sources := isSome_generator? document
  rw [ofDocument_eq, form?_eq, Panning.kind, Transpose.kind]
  cases document.present? "combined" with
  | some value =>
      cases value <;> rfl
  | none =>
      cases document.present? "panning" with
      | some value =>
          rfl
      | none =>
          cases document.present? "transpose" with
          | some value =>
              rfl
          | none =>
              cases isUnit : generator? document <;>
                cases isSource : sourceKeys.findSome? document.present? <;>
                  simp only [isUnit, isSource, Option.isSome_some, Option.isSome_none] at sources
              · cases document.present? "vocoder" with
                | some value =>
                    rfl
                | none =>
                    cases document.present? "filter" <;> rfl
              · cases sources
              · cases sources
              · rfl

end Definition

end SynthGraph
