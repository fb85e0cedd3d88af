import SynthGraph.Document
import SynthGraph.Proofs.Entries
import SynthGraph.Proofs.Number.Rounding

namespace SynthGraph

/-!
# Integers of documents that were read

A text keeps integers of 64 bits, signed or unsigned, and all other numbers are
rounded.  So whatever number is asked of a document that was read, or of a part
of it, is finite.
-/

/-- An integer that a numeral stands for is kept. -/
theorem Numeral.keptInteger_of_integer?
    {numeral : Numeral}
    {value : Int}
    (isInteger : numeral.integer? = some value) :
    keptInteger value = true := by
  simp only [integer?] at isInteger
  generalize (if numeral.negative then -(numeral.whole : Int) else numeral.whole) = spelled
    at isInteger
  split at isInteger
  · split at isInteger
    · cases isInteger
    · next allowed =>
      cases isInteger
      rw [not_or, Bool.not_eq_false] at allowed
      exact allowed.2
  · cases isInteger

/-- The number nearest to an integer that is kept is finite. -/
theorem Binary.isSome_finite?_ofInt
    {value : Int}
    (kept : Numeral.keptInteger value = true) :
    (Binary.ofInt Format.double value).finite?.isSome := by
  rw [Numeral.keptInteger, Bool.and_eq_true, decide_eq_true_eq, decide_eq_true_eq] at kept
  have below : value.natAbs < 2 ^ 64 := by
    simp only [power_eq_pow] at kept
    omega
  have sizes : Format.double.fractionDigits + 1086 = 64 + Format.double.depth :=
    rfl
  have fits :
      value.natAbs * Format.double.one / 1 < 2 ^ (Format.double.fractionDigits + 1086) := by
    rw [Nat.div_one, Format.one_eq_pow, sizes, pow_add]
    exact Nat.mul_lt_mul_of_pos_right below (Nat.two_pow_pos _)
  obtain ⟨rounded, isRounded, _⟩ :=
    Binary.exists_finite_ofFraction (value < 0) fits (by decide)
  rw [ofInt, isRounded]
  rfl

namespace Document

/-- All integers in a document are such as a text keeps. -/
inductive Kept : Document → Prop where
  | null : Kept null
  | bool (value : Bool) : Kept (bool value)
  | integer {value : Int} (kept : Numeral.keptInteger value = true) : Kept (integer value)
  | float (value : Finite Format.double) : Kept (float value)
  | text (content : String) : Kept (text content)
  | list {items : List Document} (each : ∀ item ∈ items, Kept item) : Kept (list items)
  | object {fields : Fields} (each : ∀ field ∈ fields, Kept field.2) : Kept (object fields)

section Parts

variable {document : Document}

/-- The parts of a list are kept as it is. -/
theorem Kept.items?
    {items : List Document}
    (kept : document.Kept)
    (areItems : document.items? = some items) :
    ∀ item ∈ items, item.Kept := by
  cases kept with
  | list each =>
      cases areItems
      exact each
  | _ => cases areItems

/-- The number that is held is finite. -/
theorem Kept.isSome_finite?
    {number : Double}
    (kept : document.Kept)
    (isNumber : document.number? = some number) :
    number.finite?.isSome := by
  cases kept with
  | integer kept =>
      cases isNumber
      exact Binary.isSome_finite?_ofInt kept
  | float value =>
      cases isNumber
      rfl
  | _ => cases isNumber

end Parts

section Reading

theorem kept_ofNumeral?
    {numeral : Numeral}
    {document : Document}
    (isRead : ofNumeral? numeral = some document) :
    document.Kept := by
  rw [ofNumeral?] at isRead
  split at isRead
  · next value isInteger =>
    cases isRead
    exact .integer (Numeral.keptInteger_of_integer? isInteger)
  · obtain ⟨value, _, rfl⟩ := Option.map_eq_some_iff.mp isRead
    exact .float value

mutual

/-- What a tree spells is kept. -/
theorem kept_ofJson? :
    (tree : Json) → {document : Document} → ofJson? tree = some document → document.Kept
  | .null, _, rfl => .null
  | .bool value, _, rfl => .bool value
  | .number _, _, isRead => kept_ofNumeral? isRead
  | .text _, _, isRead => by
      obtain ⟨content, _, rfl⟩ := Option.map_eq_some_iff.mp isRead
      exact .text content
  | .list trees, _, isRead => by
      obtain ⟨items, areItems, rfl⟩ := Option.map_eq_some_iff.mp isRead
      exact .list (kept_ofItems? trees areItems)
  | .object trees, _, isRead => by
      obtain ⟨fields, areFields, rfl⟩ := Option.map_eq_some_iff.mp isRead
      exact .object (kept_ofFields? trees (List.forall_mem_nil _) areFields)

/-- What items spell is kept. -/
theorem kept_ofItems? :
    (trees : List Json) →
      {items : List Document} → ofItems? trees = some items → ∀ item ∈ items, item.Kept
  | [], _, rfl => List.forall_mem_nil _
  | tree :: trees, _, isRead => by
      rw [ofItems?] at isRead
      split at isRead
      · next first rest isFirst areRest =>
        cases isRead
        exact List.forall_mem_cons.mpr ⟨kept_ofJson? tree isFirst, kept_ofItems? trees areRest⟩
      · cases isRead

/-- Fields stay kept when spelled ones are added. -/
theorem kept_ofFields? :
    (trees : List (Option String × Json)) →
      {before fields : Fields} →
      (∀ field ∈ before, field.2.Kept) →
      ofFields? before trees = some fields →
      ∀ field ∈ fields, field.2.Kept
  | [], _, _, kept, rfl => kept
  | (none, _) :: _, _, _, _, isRead => nomatch isRead
  | (some name, tree) :: trees, before, _, kept, isRead => by
      cases isValue : ofJson? tree with
      | none =>
          simp only [ofFields?, isValue] at isRead
          cases isRead
      | some value =>
          simp only [ofFields?, isValue] at isRead
          refine kept_ofFields? trees ?_ isRead
          intro field member
          rcases Entries.mem_insert member with rfl | isBefore
          · exact kept_ofJson? tree isValue
          · exact kept field isBefore

end

/-- A document that was read is kept. -/
theorem kept_of_read?
    {text : String}
    {document : Document}
    (isRead : read? text = some document) :
    document.Kept := by
  rw [read?] at isRead
  split at isRead
  · split at isRead
    · exact kept_ofJson? _ isRead
    · cases isRead
  · cases isRead

end Reading

end Document

end SynthGraph
