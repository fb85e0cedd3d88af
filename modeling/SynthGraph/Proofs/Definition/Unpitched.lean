import SynthGraph.Proofs.Definition.Rewriting

namespace SynthGraph

/-!
# Documents without pitches

A loaded sound source follows the played note, so loading a document forgets the
pitches that generated waves had in it.  What is left of a document is defined
here, and how it comes through the forms in which units write their documents.
-/

namespace Entries

variable {α : Type}

/-- The entries of all but some names. -/
def without (names : List String) (entries : Entries α) : Entries α :=
  entries.filter fun entry => entry.1 ∉ names

theorem without_insert
    {names : List String}
    {name : String}
    (isNamed : name ∈ names)
    (value : α)
    (entries : Entries α) :
    without names (insert name value entries) = without names entries := by
  unfold without
  fun_induction insert name value entries with
  | case1 =>
      simp [isNamed]
  | case2 =>
      simp [isNamed]
  | case3 =>
      simp [isNamed]
  | case4 other old rest _ _ inductionHypothesis =>
      rw [List.filter_cons, List.filter_cons, inductionHypothesis]

theorem without_eq_self
    {names : List String}
    {entries : Entries α}
    (unnamed : ∀ entry ∈ entries, entry.1 ∉ names) :
    without names entries = entries := by
  rw [without, List.filter_eq_self]
  intro entry member
  exact decide_eq_true (unnamed entry member)

/-- Changing each value by its name commutes with inserting one. -/
theorem map_insert
    (change : String → α → α)
    (name : String)
    (value : α)
    (entries : Entries α) :
    (insert name value entries).map (fun entry => (entry.1, change entry.1 entry.2)) =
      insert name (change name value)
        (entries.map fun entry => (entry.1, change entry.1 entry.2)) := by
  fun_induction insert name value entries with
  | case1 =>
      rfl
  | case2 =>
      simp [insert]
  | case3 other old rest different before =>
      simp [insert, different, before]
  | case4 other old rest different notBefore inductionHypothesis =>
      simp [insert, different, notBefore, inductionHypothesis]

theorem map_insertAll
    (change : String → α → α)
    (entries additions : Entries α) :
    (insertAll entries additions).map (fun entry => (entry.1, change entry.1 entry.2)) =
      insertAll (entries.map fun entry => (entry.1, change entry.1 entry.2))
        (additions.map fun entry => (entry.1, change entry.1 entry.2)) := by
  induction additions generalizing entries with
  | nil =>
      rfl
  | cons addition rest inductionHypothesis =>
      have later := inductionHypothesis (insert addition.1 addition.2 entries)
      rw [map_insert] at later
      exact later

end Entries

namespace Document

/-- The fields of a generated wave that say how high it sounds. -/
def pitchKeys : List String :=
  ["pitch", "auto_pitch"]

/-- The body of a key; that of a generated wave loses its pitch. -/
def withoutPitch (key : String) : Document → Document
  | object fields =>
      if key ∈ waveKeys.map Prod.fst then
        object (Entries.without pitchKeys fields)
      else
        object fields
  | document => document

mutual

/-- A document in which no generated wave has a pitch, at any depth. -/
def unpitched : Document → Document
  | list items => list (unpitchedItems items)
  | object fields => object (unpitchedFields fields)
  | document => document

/-- Items in which no generated wave has a pitch. -/
def unpitchedItems : List Document → List Document
  | [] => []
  | first :: rest => unpitched first :: unpitchedItems rest

/-- Fields in which no generated wave has a pitch. -/
def unpitchedFields : List (String × Document) → List (String × Document)
  | [] => []
  | (name, value) :: rest => (name, (unpitched value).withoutPitch name) :: unpitchedFields rest

end

theorem unpitchedItems_eq
    (items : List Document) :
    unpitchedItems items = items.map unpitched := by
  induction items with
  | nil =>
      rfl
  | cons first rest inductionHypothesis =>
      rw [unpitchedItems, inductionHypothesis, List.map_cons]

theorem unpitchedFields_eq
    (fields : Fields) :
    unpitchedFields fields =
      fields.map fun field => (field.1, field.2.unpitched.withoutPitch field.1) := by
  induction fields with
  | nil =>
      rfl
  | cons field rest inductionHypothesis =>
      rw [unpitchedFields, inductionHypothesis, List.map_cons]

theorem unpitchedFields_insert
    (name : String)
    (value : Document)
    (fields : Fields) :
    unpitchedFields (Entries.insert name value fields) =
      Entries.insert name (value.unpitched.withoutPitch name) (unpitchedFields fields) := by
  simp only [unpitchedFields_eq]
  exact Entries.map_insert (fun name value => value.unpitched.withoutPitch name) name value fields

theorem unpitchedFields_merge?
    (fields : Fields)
    (source : Option Document) :
    unpitchedFields (fields.merge? source) =
      Fields.merge? (unpitchedFields fields) (source.map unpitched) := by
  cases source with
  | none =>
      rfl
  | some document =>
      cases document with
      | object additions =>
          simp only [Fields.merge?, Fields.merge, Option.map_some, unpitched, unpitchedFields_eq]
          exact
            Entries.map_insertAll (fun name value => value.unpitched.withoutPitch name)
              fields additions
      | _ =>
          rfl

/-- A document that holds no other documents. -/
def IsPlain : Document → Prop
  | list _ => False
  | object _ => False
  | _ => True

theorem isPlain_number
    (value : Double) :
    (number value).IsPlain := by
  unfold number
  split
  · split
    · split <;> trivial
    · trivial
  · trivial

theorem IsPlain.unpitched
    {value : Document}
    (plain : value.IsPlain) :
    value.unpitched = value := by
  cases value with
  | list | object =>
      cases plain
  | _ =>
      rfl

theorem IsPlain.withoutPitch
    {value : Document}
    (plain : value.IsPlain)
    (key : String) :
    value.withoutPitch key = value := by
  cases value with
  | list | object =>
      cases plain
  | _ =>
      rfl

theorem unpitchedFields_of_isPlain
    {fields : Fields}
    (plain : ∀ field ∈ fields, field.2.IsPlain) :
    unpitchedFields fields = fields := by
  rw [unpitchedFields_eq]
  refine (List.map_congr_left ?_).trans (List.map_id fields)
  intro field member
  have isPlain := plain field member
  rw [isPlain.unpitched, isPlain.withoutPitch]
  rfl

theorem withoutPitch_of_other
    {key : String}
    (other : key ∉ waveKeys.map Prod.fst)
    (body : Document) :
    body.withoutPitch key = body := by
  cases body with
  | object fields =>
      exact if_neg other
  | _ =>
      rfl

/-- Under a key that is not of a generated wave a body keeps its own fields. -/
theorem unpitched_keyed
    {key : String}
    (other : key ∉ waveKeys.map Prod.fst)
    (body : Fields) :
    (keyed key body).unpitched = keyed key (unpitchedFields body) := by
  simp only [keyed, unpitched, unpitchedFields, withoutPitch_of_other other]

theorem unpitched_combined
    (documents : List Document) :
    (combined documents).unpitched = combined (documents.map unpitched) := by
  have other : "combined" ∉ waveKeys.map Prod.fst := by
    decide
  simp only [combined, unpitched, unpitchedFields, withoutPitch_of_other other, unpitchedItems_eq]

theorem resolve?_unpitched
    (documents : List Document) :
    resolve? (documents.map unpitched) = (resolve? documents).map unpitched := by
  match documents with
  | [] =>
      rfl
  | [document] =>
      rfl
  | first :: second :: rest =>
      exact congrArg some (unpitched_combined (first :: second :: rest)).symm

end Document

namespace Generator

open Document

theorem isPlain_dialFields
    (dials : Dials)
    (ids : List String) :
    ∀ field ∈ dialFields dials ids, field.2.IsPlain := by
  intro field member
  have listed := Entries.mem_of_mem_ofList member
  obtain ⟨id, _, rfl⟩ := List.mem_map.mp listed
  exact isPlain_number _

/-- A generated wave keeps all but its pitch. -/
theorem unpitched_compile
    (waveform : Waveform)
    (dials : Dials)
    (connections : Connections) :
    (compile waveform dials connections).unpitched =
      .keyed waveform.documentKey (dialFields dials writtenDials) := by
  have isWave : waveform.documentKey ∈ waveKeys.map Prod.fst := by
    cases waveform <;> decide
  have plain := unpitchedFields_of_isPlain (isPlain_dialFields dials writtenDials)
  have written :
      Entries.without pitchKeys (dialFields dials writtenDials) =
        dialFields dials writtenDials := by
    apply Entries.without_eq_self
    intro field member
    obtain ⟨id, isWritten, rfl⟩ := List.mem_map.mp (Entries.mem_of_mem_ofList member)
    have noPitch : ∀ id ∈ writtenDials, id ∉ pitchKeys := by
      decide
    exact noPitch id isWritten
  have kept :
      Entries.without pitchKeys (unpitchedFields (body dials connections)) =
        dialFields dials writtenDials := by
    unfold body
    split
    · split
      · rw [unpitchedFields_insert, Entries.without_insert (by decide), plain, written]
      · rw [plain, written]
    · rw [unpitchedFields_insert, Entries.without_insert (by decide), plain, written]
  simp only [compile, keyed, unpitched, unpitchedFields, withoutPitch, if_pos isWave, kept]

end Generator

/-- A sample player has no pitch to lose. -/
theorem Sample.unpitched_compile
    (sample : Sample)
    (dials : Dials) :
    (sample.compile dials).unpitched = sample.compile dials := by
  have other : Sample.kind ∉ Document.waveKeys.map Prod.fst := by
    decide
  rw [compile, Document.unpitched_keyed other, Document.unpitchedFields_of_isPlain]
  intro field member
  have listed := Entries.mem_of_mem_ofList member
  simp only [List.mem_cons, List.not_mem_nil, or_false] at listed
  rcases listed with rfl | rfl | rfl | rfl
  · trivial
  · exact Document.isPlain_number _
  · trivial
  · exact Document.isPlain_number _

/-- What a filter takes up loses its pitches, and the filter keeps its parameters. -/
theorem Filter.unpitched_keyed_body
    (mode : FilterMode)
    (dials : Dials)
    (filtered : Option Document) :
    (Document.keyed "filter" (body mode dials filtered)).unpitched =
      .keyed "filter" (body mode dials (filtered.map Document.unpitched)) := by
  have other : "filter" ∉ Document.waveKeys.map Prod.fst := by
    decide
  have otherMode : mode.key ∉ Document.waveKeys.map Prod.fst := by
    cases mode <;> decide
  have plain : Document.unpitchedFields (parameters dials) = parameters dials := by
    apply Document.unpitchedFields_of_isPlain
    intro field member
    obtain ⟨dial, _, rfl⟩ := List.mem_map.mp (Entries.mem_of_mem_ofList member)
    exact Document.isPlain_number _
  rw [Document.unpitched_keyed other, body, Document.unpitchedFields_merge?]
  simp only [Document.unpitchedFields, Document.unpitched, plain,
    Document.withoutPitch_of_other otherMode]
  rfl

/-- The name and the bank slot of an instrument stay in its document. -/
theorem Instrument.unpitched_label
    (instrument : Instrument)
    (document : Document) :
    (instrument.label document).unpitched = instrument.label document.unpitched := by
  cases document with
  | object fields =>
      cases isName : instrument.name <;> cases isIndex : instrument.bankIndex <;>
        simp only [label, isName, isIndex, Document.unpitched, Document.unpitchedFields_insert] <;>
        rfl
  | _ =>
      rfl

end SynthGraph
