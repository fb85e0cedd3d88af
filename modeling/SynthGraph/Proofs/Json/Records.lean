import Mathlib.Data.List.Nodup
import SynthGraph.Json.Record

namespace SynthGraph.Json

/-!
# Written records are read back field by field

A record whose fields have different names is split into the fields that were
written, and those that were left out are found missing.  Natural numbers of a
fixed size and lists are read back by the rules of their fields.

Main statement: `Json.slots?_record`.
-/

section Fields

variable {fields : List (String × Option Json)}

/-- The fields of a record that are there, as the object has them. -/
def writtenFields (fields : List (String × Option Json)) : List (Option String × Json) :=
  (Record.present fields).map fun field => (some field.1, field.2)

/-- A field in front is there or is left out. -/
private theorem writtenFields_cons (name : String) (slot : Option Json) :
    writtenFields ((name, slot) :: fields)
      = slot.toList.map (some name, ·) ++ writtenFields fields := by
  cases slot <;> rfl

/-- A name that no field has does not come up. -/
private theorem filter_writtenFields
    {name : String}
    (absent : name ∉ fields.map Prod.fst) :
    (writtenFields fields).filter (·.1 = some name) = [] := by
  induction fields with
  | nil => rfl
  | cons field fields inductionHypothesis =>
      obtain ⟨first, slot⟩ := field
      simp only [List.map_cons, List.mem_cons, not_or] at absent
      rw [writtenFields_cons, List.filter_append, inductionHypothesis absent.2]
      cases slot <;> simp [Ne.symm absent.1]

/-- A field is found as it was written, if no other one has its name. -/
private theorem single?_writtenFields
    (namesNodup : (fields.map Prod.fst).Nodup)
    {name : String}
    {slot : Option Json}
    (member : (name, slot) ∈ fields) :
    single? (writtenFields fields) name = some slot := by
  suffices found : (writtenFields fields).filter (·.1 = some name)
      = slot.toList.map (some name, ·) by
    rw [single?, found]
    cases slot <;> rfl
  induction fields with
  | nil => simp at member
  | cons field fields inductionHypothesis =>
      obtain ⟨first, firstSlot⟩ := field
      rw [List.map_cons, List.nodup_cons] at namesNodup
      rw [writtenFields_cons, List.filter_append]
      rcases List.mem_cons.mp member with same | later
      · obtain ⟨rfl, rfl⟩ := Prod.mk.inj same
        rw [filter_writtenFields namesNodup.1]
        cases slot <;> simp
      · have different : first ≠ name := by
          rintro rfl
          exact namesNodup.1 (List.mem_map.mpr ⟨_, later, rfl⟩)
        rw [inductionHypothesis namesNodup.2 later]
        cases firstSlot <;> simp [different]

/-- Reading each name of a list of fields gives the fields. -/
private theorem mapM_single?
    {all : List (String × Option Json)}
    (namesNodup : (all.map Prod.fst).Nodup)
    (part : fields ⊆ all) :
    (fields.map Prod.fst).mapM (single? (writtenFields all)) = some (fields.map Prod.snd) := by
  induction fields with
  | nil => rfl
  | cons field fields inductionHypothesis =>
      have first := single?_writtenFields namesNodup (part List.mem_cons_self)
      have others := inductionHypothesis fun other member => part (List.mem_cons_of_mem _ member)
      simp [List.mapM_cons, first, others]

/-- The declared fields of a written record are read as they were written. -/
theorem slots?_record
    (fields : List (String × Option Json))
    (namesNodup : (fields.map Prod.fst).Nodup) :
    slots? (fields.map Prod.fst) (record (Record.present fields)) = some (fields.map Prod.snd) := by
  have named : (writtenFields fields).all (·.1.isSome) = true := by simp [writtenFields]
  rw [record, slots?, ← writtenFields, if_pos named]
  exact mapM_single? namesNodup (List.Subset.refl fields)

end Fields

section Naturals

/-- A natural number within 64 bits is written as an integer. -/
private theorem integer?_ofNat {value : Nat} (below : value < power 2 64) :
    (Numeral.ofNat value).integer? = some value := by
  have kept : Numeral.keptInteger value = true := by
    simp only [Numeral.keptInteger, Bool.and_eq_true, decide_eq_true_eq]
    have least : -((power 2 63 : Nat) : Int) ≤ 0 := Int.neg_nonpos_of_nonneg (Int.natCast_nonneg _)
    exact ⟨Int.le_trans least (Int.natCast_nonneg _), Int.ofNat_lt.mpr below⟩
  simp [Numeral.integer?, Numeral.ofNat, kept]

/-- A natural number below a bound is read back. -/
private theorem naturalBelow?_natural
    {bound value : Nat}
    (within : bound ≤ power 2 64)
    (below : value < bound) :
    (natural value).naturalBelow? bound = some value := by
  have spelled := integer?_ofNat (Nat.lt_of_lt_of_le below within)
  rw [natural, naturalBelow?, spelled]
  exact if_pos below

@[simp]
theorem uint8?_natural (value : UInt8) : (natural value.toNat).uint8? = some value := by
  rw [uint8?, naturalBelow?_natural (by decide) value.toNat_lt, Option.map_some,
    UInt8.ofNat_toNat]

@[simp]
theorem uint32?_natural (value : UInt32) : (natural value.toNat).uint32? = some value := by
  rw [uint32?, naturalBelow?_natural (by decide) value.toNat_lt, Option.map_some,
    UInt32.ofNat_toNat]

@[simp]
theorem uint64?_natural (value : UInt64) : (natural value.toNat).uint64? = some value := by
  rw [uint64?, naturalBelow?_natural (by decide) value.toNat_lt, Option.map_some,
    UInt64.ofNat_toNat]

end Naturals

section Values

variable {α β : Type}

@[simp]
theorem string?_string (content : String) : (string content).string? = some content :=
  rfl

@[simp]
theorem bool?_bool (value : Bool) : (bool value).bool? = some value :=
  rfl

/-- A list is read item by item. -/
theorem listOf?_list_map
    (read? : Json → Option α)
    (write : β → Json)
    (items : List β) :
    listOf? read? (list (items.map write)) = items.mapM fun item => read? (write item) := by
  rw [listOf?, List.mapM_map]
  rfl

/-- A field that may be missing is read where it is written, unless it is written as null. -/
theorem optional?_map
    (read? : Json → Option α)
    {write : β → Json}
    (written : ∀ value, write value ≠ null)
    (slot : Option β) :
    optional? read? (slot.map write)
      = Record.optional? (fun value => read? (write value)) slot := by
  cases slot with
  | none => rfl
  | some value =>
      have kept : nonNull? (write value) = some (write value) := by
        cases spelled : write value with
        | null => exact absurd spelled (written value)
        | _ => rfl
      simp [optional?, Record.optional?, kept]

/-- A field that may be missing comes back as it was, if its values do. -/
theorem optional?_map_eq_some
    {read? : Json → Option α}
    (write : α → Json)
    (written : ∀ value, write value ≠ null)
    (readBack : ∀ value, read? (write value) = some value)
    (slot : Option α) :
    optional? read? (slot.map write) = some slot := by
  rw [optional?_map read? written]
  cases slot with
  | none => rfl
  | some value => rw [Record.optional?, readBack, Option.map_some]

end Values

end SynthGraph.Json
