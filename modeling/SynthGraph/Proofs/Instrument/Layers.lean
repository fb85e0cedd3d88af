import SynthGraph.Proofs.Document.Nesting
import SynthGraph.Proofs.Instrument.Parts

namespace SynthGraph

/-!
# What units add to the nesting of documents

Filters are written around the sounds that they take up, and transposes around
pitches.  Every unit takes up the documents of one input at most.  Its own nests
filters as deep as the deepest of these and one deeper if it is a filter itself,
and the same holds of transposes (`InstrumentUnit.nesting_compile`).
-/

open Document

/-- What documents nest. -/
inductive Layer where
  | filter
  | transpose

namespace Layer

/-- The key of a layer in documents. -/
def key : Layer → String
  | filter => "filter"
  | transpose => Transpose.kind

/-- Whether a unit adds a layer. -/
def isAdded : Layer → InstrumentUnit → Bool
  | filter, .filter _ _ => true
  | transpose, .transpose _ => true
  | _, _ => false

theorem key_ne_combined
    (layer : Layer) :
    layer.key ≠ "combined" := by
  cases layer <;> decide

/-- Numbers under other names add no layer. -/
theorem quiet_number
    {layer : Layer}
    {name : String}
    (different : name ≠ layer.key)
    (value : Double) :
    Quiet layer.key (name, .number value) :=
  ⟨different, nesting_number layer.key value⟩

end Layer

section Units

/-- Where pitches arrive a wave writes them, and otherwise at most the pitch of its dial. -/
theorem Generator.body_cases
    (dials : Dials)
    (arriving : Connections) :
    (∃ pitch,
        arriving.resolve? "FREQ" = some pitch ∧
          body dials arriving =
            Entries.insert "auto_pitch" pitch (dialFields dials writtenDials)) ∨
      arriving.documents "FREQ" = [] ∧
        (body dials arriving = dialFields dials writtenDials ∨
          body dials arriving =
            Entries.insert "pitch" (.number (Dials.value dials "pitch"))
              (dialFields dials writtenDials)) := by
  unfold body
  split
  · cases arrived : arriving.resolve? "FREQ" with
    | some pitch =>
        exact Or.inl ⟨pitch, rfl, rfl⟩
    | none =>
        exact Or.inr ⟨resolve?_eq_none_iff.mp arrived, Or.inl rfl⟩
  · rename_i unpatched
    have nothing : arriving.get "FREQ" = [] := by
      simpa [Connections.isConnected] using unpatched
    exact Or.inr ⟨by rw [Connections.documents, nothing, List.filterMap_nil], Or.inr rfl⟩

variable (layer : Layer)

theorem Generator.fieldsNesting_written
    (dials : Dials) :
    fieldsNesting layer.key (dialFields dials writtenDials) = 0 := by
  apply fieldsNesting_eq_zero
  intro field member
  obtain ⟨id, isWritten, rfl⟩ := List.mem_map.mp (Entries.mem_of_mem_ofList member)
  have notKey : ∀ id ∈ writtenDials, id ≠ layer.key := by
    cases layer <;> decide
  exact Layer.quiet_number (notKey id isWritten) _

/-- A pitch nests in a wave as deep as by itself. -/
theorem Generator.fieldsNesting_insert
    (dials : Dials)
    {name : String}
    (new : name ∉ writtenDials)
    (different : name ≠ layer.key)
    (value : Document) :
    fieldsNesting layer.key (Entries.insert name value (dialFields dials writtenDials)) =
      value.nesting layer.key := by
  have notWritten : name ∉ (dialFields dials writtenDials).map Prod.fst := by
    intro isThere
    obtain ⟨field, member, rfl⟩ := List.mem_map.mp isThere
    obtain ⟨id, isWritten, rfl⟩ := List.mem_map.mp (Entries.mem_of_mem_ofList member)
    exact new isWritten
  rw [fieldsNesting_perm (Entries.perm_insert notWritten value), fieldsNesting, if_neg different,
    fieldsNesting_written, Nat.zero_add, Nat.max_zero]

/-- A wave is as deep as the deepest pitch that arrives at it. -/
theorem Generator.fieldsNesting_body
    (dials : Dials)
    (arriving : Connections) :
    fieldsNesting layer.key (body dials arriving) =
      itemsNesting layer.key (arriving.documents "FREQ") := by
  have notPitch : "pitch" ≠ layer.key := by
    cases layer <;> decide
  have notAutomatic : "auto_pitch" ≠ layer.key := by
    cases layer <;> decide
  obtain ⟨pitch, arrived, isBody⟩ | ⟨nothing, isBody | isBody⟩ := body_cases dials arriving
  · rw [isBody, fieldsNesting_insert layer dials (by decide) notAutomatic,
      nesting_resolve? layer.key_ne_combined arrived]
  · rw [isBody, nothing, fieldsNesting_written, itemsNesting]
  · rw [isBody, nothing, fieldsNesting_insert layer dials (by decide) notPitch, nesting_number,
      itemsNesting]

/-- The automatic pitch of a wave is as deep as the deepest pitch that arrives at it. -/
theorem Generator.nesting_automatic
    (dials : Dials)
    (arriving : Connections) :
    (Entries.get? "auto_pitch" (body dials arriving)).elim 0 (nesting layer.key) =
      itemsNesting layer.key (arriving.documents "FREQ") := by
  have notWritten : Entries.get? "auto_pitch" (dialFields dials writtenDials) = none :=
    Entries.get?_insertAll_of_notMem (by simp [writtenDials]) []
  obtain ⟨pitch, arrived, isBody⟩ | ⟨nothing, isBody | isBody⟩ := body_cases dials arriving
  · rw [isBody, Entries.get?_insert_self, Option.elim_some,
      nesting_resolve? layer.key_ne_combined arrived]
  · rw [isBody, nothing, notWritten, Option.elim_none, itemsNesting]
  · rw [isBody, nothing, Entries.get?_insert_of_ne (by decide), notWritten, Option.elim_none,
      itemsNesting]

theorem Sample.fieldsNesting_written
    (sample : Sample)
    (gain : Double) :
    fieldsNesting layer.key
      (Entries.ofList
        [("file", .text sample.file),
          ("gain", .number gain),
          ("pitched", .bool sample.pitched),
          ("base_pitch", .number sample.basePitch)]) = 0 := by
  apply fieldsNesting_eq_zero
  intro field member
  have isWritten := Entries.mem_of_mem_ofList member
  have notKey : ∀ name ∈ ["file", "gain", "pitched", "base_pitch"], name ≠ layer.key := by
    cases layer <;> decide
  simp only [List.mem_cons, List.not_mem_nil, or_false] at isWritten
  rcases isWritten with rfl | rfl | rfl | rfl
  · exact ⟨notKey "file" (by decide), rfl⟩
  · exact Layer.quiet_number (notKey "gain" (by decide)) gain
  · exact ⟨notKey "pitched" (by decide), rfl⟩
  · exact Layer.quiet_number (notKey "base_pitch" (by decide)) sample.basePitch

theorem Filter.fieldsNesting_parameters
    {mode : FilterMode}
    {dials : Dials}
    (turned : Dials.Turned mode.dials dials) :
    fieldsNesting layer.key (parameters dials) = 0 := by
  apply fieldsNesting_eq_zero
  intro field member
  obtain ⟨dial, isDial, rfl⟩ := List.mem_map.mp (Entries.mem_of_mem_ofList member)
  have notKey : ∀ id ∈ mode.dials.map Dial.id, id ≠ layer.key := by
    cases mode <;> cases layer <;> decide
  rw [← turned.ids] at notKey
  exact Layer.quiet_number (notKey dial.id (List.mem_map_of_mem isDial)) dial.value

end Units

/-- The nesting of the document of an emission, if it is one. -/
def Emission.nesting (key : String) (emission : Emission) : Nat :=
  emission.document?.elim 0 (Document.nesting key)

namespace InstrumentUnit

/-- The input whose documents a unit takes up into its own. -/
def takesUp? : InstrumentUnit → Option String
  | output | filter _ _ => some "IN"
  | generator _ _ | panning => some "FREQ"
  | transpose _ => some "FREQ IN"
  | input | wav _ _ => none

/-- The key of a unit's document says whether it adds a layer. -/
theorem nesting_keyed_of_isAdded
    {layer : Layer}
    {unit : InstrumentUnit}
    {name : String}
    (isAdded : layer.isAdded unit = decide (name = layer.key))
    {body : Fields}
    {inside : Nat}
    (isInside : fieldsNesting layer.key body = inside) :
    (Emission.document (keyed name body)).nesting layer.key =
      (if layer.isAdded unit then 1 else 0) + inside := by
  rw [Emission.nesting, Emission.document?, Option.elim_some, nesting_keyed, isAdded, isInside]
  simp only [decide_eq_true_eq]

/-- A unit adds its layer to what it takes up, and loses nothing of it. -/
theorem nesting_compile
    (layer : Layer)
    {unit : InstrumentUnit}
    (tuned : CatalogUnit.Tuned unit)
    {arriving : Connections}
    (formed :
      ∀ socket ∈ UnitLike.inputs unit,
        ∀ document ∈ arriving.documents socket.name, socket.signal.Form document) :
    (unit.compile arriving).nesting layer.key =
      (if layer.isAdded unit then 1 else 0) +
        unit.takesUp?.elim 0 fun name =>
          itemsNesting layer.key (arriving.documents name) := by
  have merges := mergesAll_of_formed formed
  have notCombined := layer.key_ne_combined
  cases unit with
  | input =>
      cases layer <;> rfl
  | output =>
      have notAdded : layer.isAdded output = false := by
        cases layer <;> rfl
      have isWhole :
          (compile arriving output).nesting layer.key =
            (arriving.resolve? "IN").elim 0 (Document.nesting layer.key) := by
        rw [compile, Emission.nesting, Emission.document?_ofDocument?]
      rw [isWhole, notAdded]
      cases arrived : arriving.resolve? "IN" with
      | none =>
          simp [takesUp?, resolve?_eq_none_iff.mp arrived, itemsNesting]
      | some whole =>
          simp [takesUp?, nesting_resolve? notCombined arrived]
  | generator waveform dials =>
      have isAdded :
          layer.isAdded (generator waveform dials) =
            decide (waveform.documentKey = layer.key) := by
        cases layer <;> cases waveform <;> rfl
      exact nesting_keyed_of_isAdded isAdded (Generator.fieldsNesting_body layer dials arriving)
  | wav sample dials =>
      have isAdded : layer.isAdded (wav sample dials) = decide (Sample.kind = layer.key) := by
        cases layer <;> rfl
      exact nesting_keyed_of_isAdded isAdded (Sample.fieldsNesting_written layer sample _)
  | filter mode dials =>
      have isAdded : layer.isAdded (filter mode dials) = decide ("filter" = layer.key) := by
        cases layer <;> rfl
      have notKey : mode.key ≠ layer.key := by
        cases layer <;> cases mode <;> decide
      have each := formed (.input "IN" .audio) List.mem_cons_self
      have quiet :
          ∀ field ∈ [(mode.key, object (Filter.parameters dials))], Quiet layer.key field := by
        rw [List.forall_mem_singleton]
        exact ⟨notKey, Filter.fieldsNesting_parameters layer tuned⟩
      exact nesting_keyed_of_isAdded isAdded
        (fieldsNesting_merge? notCombined (fun _ => IsAudio.isSingle) each merges quiet)
  | transpose dials =>
      have isAdded : layer.isAdded (transpose dials) = decide (Transpose.kind = layer.key) := by
        cases layer <;> rfl
      have notKey : "semitones" ≠ layer.key := by
        cases layer <;> decide
      have each := formed (.input "FREQ IN" .frequency) List.mem_cons_self
      have quiet :
          ∀ field ∈ [("semitones", number (Dials.value dials "semitones"))],
            Quiet layer.key field := by
        rw [List.forall_mem_singleton]
        exact Layer.quiet_number notKey _
      exact nesting_keyed_of_isAdded isAdded
        (fieldsNesting_merge? notCombined (fun _ => IsPitch.isSingle) each merges quiet)
  | panning =>
      have isAdded : layer.isAdded panning = decide (Panning.kind = layer.key) := by
        cases layer <;> rfl
      have each := formed (.input "FREQ" .frequency) List.mem_cons_self
      have quiet : ∀ field ∈ ([] : Fields), Quiet layer.key field := by
        simp
      exact nesting_keyed_of_isAdded isAdded
        (fieldsNesting_merge? notCombined (fun _ => IsPitch.isSingle) each merges quiet)

end InstrumentUnit

end SynthGraph
