import SynthGraph.Proofs.Document.Grammar

namespace SynthGraph.Document

/-!
# How deep keys nest

The nesting of a key is the largest number of fields with the key that stand one
inside the other, through lists and other fields.  Combining documents nests as
deep as the deepest of them (`nesting_resolve?`), and so does taking them up
beside parameters (`fieldsNesting_merge?`).  Either way, what stands in one of
the documents stands in the result.
-/

mutual

/-- How many fields with the key stand one inside the other, at most. -/
def nesting (key : String) : Document → Nat
  | list items => itemsNesting key items
  | object fields => fieldsNesting key fields
  | _ => 0

/-- The nesting of the deepest item. -/
def itemsNesting (key : String) : List Document → Nat
  | [] => 0
  | item :: rest => max (nesting key item) (itemsNesting key rest)

/-- The nesting of the deepest field, itself included. -/
def fieldsNesting (key : String) : List (String × Document) → Nat
  | [] => 0
  | (name, value) :: rest =>
      max ((if name = key then 1 else 0) + nesting key value) (fieldsNesting key rest)

end

section Lists

variable {key : String}

theorem itemsNesting_le_iff
    {items : List Document}
    {bound : Nat} :
    itemsNesting key items ≤ bound ↔ ∀ item ∈ items, item.nesting key ≤ bound := by
  induction items with
  | nil =>
      simp [itemsNesting]
  | cons item rest inductionHypothesis =>
      simp [itemsNesting, inductionHypothesis]

theorem nesting_le_itemsNesting
    {items : List Document}
    {item : Document}
    (member : item ∈ items) :
    item.nesting key ≤ itemsNesting key items :=
  itemsNesting_le_iff.mp (Nat.le_refl _) item member

/-- Where something nests at all, some item is the deepest. -/
theorem exists_nesting_eq
    {items : List Document}
    (nonzero : itemsNesting key items ≠ 0) :
    ∃ item ∈ items, item.nesting key = itemsNesting key items := by
  by_contra none
  push Not at none
  have below : itemsNesting key items ≤ itemsNesting key items - 1 := by
    rw [itemsNesting_le_iff]
    intro item member
    have atMost : item.nesting key ≤ itemsNesting key items := nesting_le_itemsNesting member
    have different := none item member
    omega
  omega

theorem fieldsNesting_le_iff
    {fields : Fields}
    {bound : Nat} :
    fieldsNesting key fields ≤ bound ↔
      ∀ field ∈ fields, (if field.1 = key then 1 else 0) + field.2.nesting key ≤ bound := by
  induction fields with
  | nil =>
      simp [fieldsNesting]
  | cons field rest inductionHypothesis =>
      simp [fieldsNesting, inductionHypothesis]

/-- The order of fields makes no difference. -/
theorem fieldsNesting_perm
    {fields others : Fields}
    (permuted : fields.Perm others) :
    fieldsNesting key fields = fieldsNesting key others := by
  apply eq_of_forall_ge_iff
  intro bound
  simp only [fieldsNesting_le_iff, permuted.mem_iff]

theorem fieldsNesting_append
    (fields others : Fields) :
    fieldsNesting key (fields ++ others) =
      max (fieldsNesting key fields) (fieldsNesting key others) := by
  apply eq_of_forall_ge_iff
  intro bound
  simp only [max_le_iff, fieldsNesting_le_iff, List.forall_mem_append]

/-- Whether neither the name of a field nor anything in its value is the key. -/
def Quiet (key : String) (field : String × Document) : Prop :=
  field.1 ≠ key ∧ field.2.nesting key = 0

theorem fieldsNesting_eq_zero
    {fields : Fields}
    (quiet : ∀ field ∈ fields, Quiet key field) :
    fieldsNesting key fields = 0 := by
  apply Nat.eq_zero_of_le_zero
  rw [fieldsNesting_le_iff]
  intro field member
  obtain ⟨different, nothing⟩ := quiet field member
  rw [if_neg different, nothing]

end Lists

@[simp]
theorem nesting_number
    (key : String)
    (value : Double) :
    (number value).nesting key = 0 := by
  unfold number
  repeat' split
  all_goals rfl

theorem nesting_keyed
    (key name : String)
    (body : Fields) :
    (keyed name body).nesting key = (if name = key then 1 else 0) + fieldsNesting key body := by
  simp [keyed, nesting, fieldsNesting]

theorem HasFields.nesting_eq
    {document : Document}
    {fields : Fields}
    (hasFields : document.HasFields fields)
    (key : String) :
    document.nesting key = fieldsNesting key fields := by
  obtain ⟨ordered, rfl, _, permuted⟩ := hasFields
  exact fieldsNesting_perm permuted

/-- A field stands in a document, at any depth. -/
inductive HasInside (field : String × Document) : Document → Prop where
  | here {fields : Fields} : field ∈ fields → HasInside field (.object fields)
  | deeper {fields : Fields} {other : String × Document} :
      other ∈ fields → HasInside field other.2 → HasInside field (.object fields)
  | item {items : List Document} {item : Document} :
      item ∈ items → HasInside field item → HasInside field (.list items)

section Inside

variable {field : String × Document}

theorem HasInside.mono
    {fields others : Fields}
    (inside : (object fields).HasInside field)
    (subset : fields ⊆ others) :
    (object others).HasInside field := by
  cases inside with
  | here member =>
      exact .here (subset member)
  | deeper member inside =>
      exact .deeper (subset member) inside

theorem HasFields.hasInside
    {document : Document}
    {fields : Fields}
    (hasFields : document.HasFields fields)
    (inside : (object fields).HasInside field) :
    document.HasInside field := by
  obtain ⟨ordered, rfl, _, permuted⟩ := hasFields
  exact inside.mono permuted.symm.subset

theorem HasInside.keyed
    {body : Fields}
    (inside : (object body).HasInside field)
    (key : String) :
    (Document.keyed key body).HasInside field :=
  .deeper (List.mem_singleton_self _) inside

variable
  {documents : List Document}
  {document : Document}
  (member : document ∈ documents)
  (inside : document.HasInside field)

include member inside

theorem hasInside_resolve? :
    ∃ whole, resolve? documents = some whole ∧ whole.HasInside field := by
  match documents, member with
  | [_], member =>
      obtain rfl := List.mem_singleton.mp member
      exact ⟨document, rfl, inside⟩
  | first :: second :: rest, member =>
      exact ⟨_, rfl, .deeper (List.mem_singleton_self _) (.item member inside)⟩

/-- What is taken up beside parameters stands beside them. -/
theorem hasInside_merge?
    {single : Document → Prop}
    (areSingle : ∀ document, single document → document.IsSingle)
    (each : ∀ document ∈ documents, single document)
    {own : Fields}
    (merges : MergesAll own (resolve? documents)) :
    (object (own.merge? (resolve? documents))).HasInside field := by
  obtain ⟨whole, isWhole, insideWhole⟩ := hasInside_resolve? member inside
  obtain ⟨key, body, rfl, _⟩ :=
    (oneOrCombined_of_resolve? each isWhole).exists_key areSingle
  apply merges.hasInside
  rw [isWhole]
  exact insideWhole.mono (List.subset_append_right own _)

end Inside

section Several

variable
  {key : String}
  (notCombined : key ≠ "combined")
  {documents : List Document}

include notCombined

/-- Several documents in one nest as deep as the deepest of them. -/
theorem nesting_resolve?
    {whole : Document}
    (isWhole : resolve? documents = some whole) :
    whole.nesting key = itemsNesting key documents := by
  match documents with
  | [] =>
      cases isWhole
  | [document] =>
      cases isWhole
      simp [itemsNesting]
  | first :: second :: rest =>
      cases isWhole
      simp [combined, nesting, fieldsNesting, notCombined.symm]

/-- What is taken up beside parameters nests as deep as before. -/
theorem fieldsNesting_merge?
    {single : Document → Prop}
    (areSingle : ∀ document, single document → document.IsSingle)
    (each : ∀ document ∈ documents, single document)
    {own : Fields}
    (merges : MergesAll own (resolve? documents))
    (quiet : ∀ field ∈ own, Quiet key field) :
    fieldsNesting key (own.merge? (resolve? documents)) = itemsNesting key documents := by
  have added : fieldsNesting key (addedFields (resolve? documents)) = itemsNesting key documents := by
    cases isWhole : resolve? documents with
    | none =>
        obtain rfl := resolve?_eq_none_iff.mp isWhole
        rfl
    | some whole =>
        rw [← nesting_resolve? notCombined isWhole]
        obtain ⟨name, body, rfl, _⟩ :=
          (oneOrCombined_of_resolve? each isWhole).exists_key areSingle
        rfl
  calc
    fieldsNesting key (own.merge? (resolve? documents)) =
        (object (own.merge? (resolve? documents))).nesting key := rfl
    _ = fieldsNesting key (own ++ addedFields (resolve? documents)) := merges.nesting_eq key
    _ = max (fieldsNesting key own) (itemsNesting key documents) := by
      rw [fieldsNesting_append, added]
    _ = itemsNesting key documents := by
      rw [fieldsNesting_eq_zero quiet, Nat.zero_max]

end Several

end SynthGraph.Document
