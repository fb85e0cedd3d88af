import SynthGraph.Proofs.Definition.Forms

namespace SynthGraph

/-!
# Which documents define instruments

What stands against reading a document as a definition is listed in the order in
which the documents inside are expanded.  A document is loaded if nothing is
listed, and refused for the first thing listed otherwise; no connection is ever
refused on the way (`Instrument.settles_ofDocument`).
-/

namespace Document

/-- Documents that define a sound, by the first of their keys that counts. -/
inductive WellFormed : Document → Prop where
  | combined {document : Document} {parts : List Document} :
      document.form? = some (.combined, .list parts) →
        (∀ part ∈ parts, WellFormed part) → WellFormed document
  | panning {document body : Document} :
      document.form? = some (.panning, body) → WellFormed body → WellFormed document
  | transpose {document body : Document} :
      document.form? = some (.transpose, body) → WellFormed body → WellFormed document
  | source {document value : Document} :
      document.form? = some (.source, value) → WellFormed document
  | omitted {document value : Document} :
      document.form? = some (.omitted, value) → WellFormed document
  | filter {document body : Document} :
      document.form? = some (.filter, body) → body.hasEffect → WellFormed body →
        WellFormed document

/-- What stands against the value of a form: several sounds are a list, a filter has an effect. -/
def Form.objections : Form → Document → List DefinitionError
  | combined, .list _ => []
  | combined, value => [.unknownDefinition value]
  | filter, body => if body.hasEffect then [] else [.unknownFilter body]
  | panning, _ | transpose, _ | source, _ | omitted, _ => []

/-- What stands against reading a document as a definition, in the order of expansion. -/
def offences (document : Document) : List DefinitionError :=
  match _form : document.form? with
  | some (form, value) =>
      form.objections value ++ (form.parts value).attach.flatMap fun part => part.1.offences
  | none => [.unknownDefinition document]
termination_by sizeOf document
decreasing_by exact sizeOf_part_lt _form part.2

theorem offences_eq
    (document : Document) :
    document.offences =
      match document.form? with
      | some (form, value) => form.objections value ++ (form.parts value).flatMap offences
      | none => [.unknownDefinition document] := by
  rw [offences]
  split
  · rename_i form value isForm
    rw [isForm, List.flatMap_subtype fun _ _ => rfl, List.unattach_attach]
  · rename_i isForm
    rw [isForm]

/-- A document is well-formed by its form. -/
theorem wellFormed_iff
    {document : Document} :
    document.WellFormed ↔
      ∃ form value,
        document.form? = some (form, value) ∧
          form.objections value = [] ∧ ∀ part ∈ form.parts value, part.WellFormed := by
  constructor
  · intro wellFormed
    cases wellFormed with
    | combined isForm each =>
        exact ⟨_, _, isForm, rfl, each⟩
    | panning isForm body | transpose isForm body =>
        exact ⟨_, _, isForm, rfl, List.forall_mem_singleton.mpr body⟩
    | source isForm | omitted isForm =>
        exact ⟨_, _, isForm, rfl, nofun⟩
    | filter isForm hasEffect body =>
        exact ⟨_, _, isForm, if_pos hasEffect, List.forall_mem_singleton.mpr body⟩
  · rintro ⟨form, value, isForm, unobjected, each⟩
    cases form with
    | combined =>
        cases value with
        | list items =>
            exact .combined isForm each
        | _ =>
            cases unobjected
    | panning =>
        exact .panning isForm (List.forall_mem_singleton.mp each)
    | transpose =>
        exact .transpose isForm (List.forall_mem_singleton.mp each)
    | source =>
        exact .source isForm
    | omitted =>
        exact .omitted isForm
    | filter =>
        have hasEffect : value.hasEffect := by
          simpa [Form.objections] using unobjected
        exact .filter isForm hasEffect (List.forall_mem_singleton.mp each)

/-- Only a document without a form, no list of sounds and no body of a filter offend. -/
theorem offender_of_mem_offences
    {document : Document}
    {error : DefinitionError}
    (member : error ∈ document.offences) :
    (∃ offender,
        error = .unknownDefinition offender ∧ (offender.form? = none ∨ offender.items? = none)) ∨
      ∃ body, error = .unknownFilter body ∧ body.hasEffect = false := by
  induction document using formInduction with
  | step document inductionHypothesis =>
      rw [offences_eq] at member
      cases isForm : document.form? with
      | none =>
          simp only [isForm, List.mem_singleton] at member
          exact Or.inl ⟨document, member, Or.inl isForm⟩
      | some found =>
          obtain ⟨form, value⟩ := found
          simp only [isForm, List.mem_append, List.mem_flatMap] at member
          rcases member with isObjection | ⟨part, isPart, inPart⟩
          · cases form with
            | combined =>
                cases value with
                | list items =>
                    cases isObjection
                | _ =>
                    exact Or.inl ⟨_, List.mem_singleton.mp isObjection, Or.inr rfl⟩
            | filter =>
                cases hasEffect : value.hasEffect with
                | true =>
                    simp [Form.objections, hasEffect] at isObjection
                | false =>
                    simp only [Form.objections, hasEffect] at isObjection
                    exact Or.inr ⟨value, List.mem_singleton.mp isObjection, hasEffect⟩
            | panning | transpose | source | omitted =>
                cases isObjection
          · exact inductionHypothesis form value isForm part isPart inPart

/-- Nothing stands against well-formed documents, and something against all others. -/
theorem offences_eq_nil_iff
    {document : Document} :
    document.offences = [] ↔ document.WellFormed := by
  induction document using formInduction with
  | step document inductionHypothesis =>
      rw [offences_eq, wellFormed_iff]
      cases isForm : document.form? with
      | none =>
          simp
      | some found =>
          obtain ⟨form, value⟩ := found
          have each :
              (∀ part ∈ form.parts value, part.offences = []) ↔
                ∀ part ∈ form.parts value, part.WellFormed :=
            forall₂_congr fun part member => inductionHypothesis form value isForm part member
          simp only [List.append_eq_nil_iff, List.flatMap_eq_nil_iff, each, Option.some.injEq,
            Prod.mk.injEq, existsAndEq, and_true]
          simp

end Document

namespace Definition

open Document

/-- A reading comes out with a value if nothing offends, or else with the first offence. -/
def Settles {α : Type} (outcome : Except DefinitionError α) : List DefinitionError → Prop
  | [] => ∃ value, outcome = .ok value
  | first :: _ => outcome = .error first

section Settles

variable
  {α β : Type}
  {outcome : Except DefinitionError α}
  {next : α → Except DefinitionError β}
  {offences later : List DefinitionError}

/-- What follows offends after what comes first. -/
theorem Settles.bind
    (first : Settles outcome offences)
    (rest : ∀ value, outcome = .ok value → Settles (next value) later) :
    Settles (outcome >>= next) (offences ++ later) := by
  cases offences with
  | nil =>
      obtain ⟨value, rfl⟩ := first
      exact rest value rfl
  | cons error errors =>
      obtain rfl : outcome = .error error := first
      rfl

theorem Settles.map
    (settles : Settles outcome offences)
    (convert : α → β) :
    Settles (convert <$> outcome) offences := by
  cases offences with
  | nil =>
      obtain ⟨value, rfl⟩ := settles
      exact ⟨convert value, rfl⟩
  | cons error errors =>
      obtain rfl : outcome = .error error := settles
      rfl

theorem Settles.ok_iff
    (settles : Settles outcome offences) :
    (∃ value, outcome = .ok value) ↔ offences = [] := by
  cases offences with
  | nil =>
      exact ⟨fun _ => rfl, fun _ => settles⟩
  | cons error errors =>
      obtain rfl : outcome = .error error := settles
      simp

theorem Settles.error_iff
    (settles : Settles outcome offences)
    (error : DefinitionError) :
    outcome = .error error ↔ offences.head? = some error := by
  cases offences with
  | nil =>
      obtain ⟨value, rfl⟩ := settles
      simp
  | cons first errors =>
      obtain rfl : outcome = .error first := settles
      simp

end Settles

/-- The keys of effects are those of the modes that a filter can have. -/
theorem hasEffect_eq
    (body : Document) :
    body.hasEffect =
      (modesByKey.findSome? fun mode =>
        (body.present? mode.key).map (readFilter mode)).isSome := by
  rw [List.isSome_findSome?]
  simp only [Option.isSome_map]
  rfl

theorem settles_filter?
    (body : Document) :
    Settles (filter? body) (Form.filter.objections body) := by
  have effect := hasEffect_eq body
  change Settles (filter? body) (if body.hasEffect then [] else [.unknownFilter body])
  unfold filter?
  split
  · rename_i found isFound
    rw [isFound, Option.isSome_some] at effect
    rw [effect]
    exact ⟨found, rfl⟩
  · rename_i notFound
    rw [notFound, Option.isSome_none] at effect
    rw [effect]
    rfl

theorem settles_ofDocuments
    {documents : List Document}
    (each : ∀ document ∈ documents, Settles (ofDocument document) document.offences) :
    Settles (ofDocuments documents) (documents.flatMap offences) := by
  induction documents with
  | nil =>
      exact ⟨[], by rw [ofDocuments]⟩
  | cons first rest inductionHypothesis =>
      rw [List.forall_mem_cons] at each
      rw [ofDocuments, List.flatMap_cons]
      exact each.1.bind fun _ _ => (inductionHypothesis each.2).map _

/-- A document is read as a definition unless something offends. -/
theorem settles_ofDocument
    (document : Document) :
    Settles (ofDocument document) document.offences := by
  induction document using formInduction with
  | step document inductionHypothesis =>
      rw [ofDocument_eq_of_form, offences_eq]
      cases isForm : document.form? with
      | none =>
          rfl
      | some found =>
          obtain ⟨form, value⟩ := found
          have each := inductionHypothesis form value isForm
          cases form with
          | combined =>
              cases value with
              | list items =>
                  exact (settles_ofDocuments each).map combined
              | _ =>
                  rfl
          | panning =>
              have body := each value (List.mem_singleton_self value)
              simpa [Form.objections, Form.parts] using body.map panning
          | transpose =>
              have body := each value (List.mem_singleton_self value)
              simpa [Form.objections, Form.parts] using body.map (transpose (readTranspose value))
          | source =>
              obtain ⟨unit, isUnit⟩ := exists_generator? isForm
              simp only [isUnit]
              exact ⟨generator unit, rfl⟩
          | omitted =>
              exact ⟨omitted, rfl⟩
          | filter =>
              have body := each value (List.mem_singleton_self value)
              simp only [Form.parts, List.flatMap_singleton]
              exact (settles_filter? value).bind fun effect _ => body.map (filter effect.1 effect.2)

end Definition

namespace Instrument

open Document Definition

/-- A document is loaded unless something offends. -/
theorem settles_ofDocument
    (document : Document) :
    Settles (ofDocument document) document.offences := by
  have read := Definition.settles_ofDocument document
  cases offends : document.offences with
  | nil =>
      rw [offends] at read
      obtain ⟨definition, accepted⟩ := read
      exact ⟨_, ofDocument_eq accepted⟩
  | cons first later =>
      rw [offends] at read
      have refused : Definition.ofDocument document = .error first := read
      rw [ofDocument, refused]
      rfl

/--
Exactly the well-formed documents are loaded.  Any other is refused for the first
document inside that is no definition or no body of a filter, with its text.
-/
theorem ofDocument_accepts
    (document : Document) :
    ((∃ instrument, ofDocument document = .ok instrument) ↔ document.WellFormed) ∧
      (∀ error, ofDocument document = .error error ↔ document.offences.head? = some error) ∧
      ∀ error ∈ document.offences,
        (∃ offender,
            error = .unknownDefinition offender ∧
              (offender.form? = none ∨ offender.items? = none) ∧
              error.message = "unknown instrument definition: " ++ offender.compactText) ∨
          ∃ body,
            error = .unknownFilter body ∧
              body.hasEffect = false ∧
              error.message = "unknown filter definition: " ++ body.compactText := by
  have settles := settles_ofDocument document
  refine ⟨settles.ok_iff.trans offences_eq_nil_iff, settles.error_iff, ?_⟩
  intro error member
  rcases offender_of_mem_offences member with ⟨offender, rfl, fault⟩ | ⟨body, rfl, fault⟩
  · exact Or.inl ⟨offender, rfl, fault, rfl⟩
  · exact Or.inr ⟨body, rfl, fault, rfl⟩

end Instrument

end SynthGraph
