import SynthGraph.Json.Tree
import SynthGraph.Number.Reading
import SynthGraph.Record

namespace SynthGraph.Json

/-!
# Reading records

A record has declared fields.  It is written as an object, whose other fields
are passed over, or as a list of its fields in declared order.  A declared field
may be absent, but not be there twice.
-/

/-- The value of a field that is there at most once; none if it is repeated. -/
def single? (fields : List (Option String × Json)) (name : String) : Option (Option Json) :=
  match fields.filter (·.1 = some name) with
  | [] => some none
  | [field] => some (some field.2)
  | _ => none

/-- The fields of a record in declared order, each if it is there. -/
def slots? (names : List String) : Json → Option (List (Option Json))
  | object fields =>
      if fields.all (·.1.isSome) then names.mapM (single? fields) else none
  | list items => Record.positional? names.length items
  | _ => none

/-- The value itself, unless it is null. -/
def nonNull? : Json → Option Json
  | null => none
  | value => some value

/-- A field that may be absent or null. -/
def optional? {α : Type} (read? : Json → Option α) (slot : Option Json) : Option (Option α) :=
  Record.optional? read? (slot.bind nonNull?)

/-- A text. -/
def string? : Json → Option String
  | text content => content
  | _ => none

/-- A truth value. -/
def bool? : Json → Option Bool
  | bool value => some value
  | _ => none

/-- A natural number below a bound, written as an integer. -/
def naturalBelow? (bound : Nat) : Json → Option Nat
  | number numeral =>
      match numeral.integer? with
      | some (.ofNat value) => if value < bound then some value else none
      | _ => none
  | _ => none

/-- A natural number of eight bits. -/
def uint8? (value : Json) : Option UInt8 :=
  (value.naturalBelow? UInt8.size).map UInt8.ofNat

/-- A natural number of 32 bits. -/
def uint32? (value : Json) : Option UInt32 :=
  (value.naturalBelow? UInt32.size).map UInt32.ofNat

/-- A natural number of 64 bits. -/
def uint64? (value : Json) : Option UInt64 :=
  (value.naturalBelow? UInt64.size).map UInt64.ofNat

/-- A number of 64 bits, unless it is too large for one. -/
def double? : Json → Option Double
  | number numeral => numeral.double?.map Binary.finite
  | _ => none

/--
A number of 32 bits.  Integers are rounded once; any other number is rounded to
64 bits first.
-/
def single32? : Json → Option Single
  | number numeral =>
      match numeral.integer? with
      | some value => some (Binary.ofInt Format.single value)
      | none =>
          numeral.double?.map fun value => (Binary.finite value).convert Format.single
  | _ => none

/-- A list of values of one kind. -/
def listOf? {α : Type} (read? : Json → Option α) : Json → Option (List α)
  | list items => items.mapM read?
  | _ => none

/-- A number as it is written; what no numeral stands for is written as null. -/
def ofBinary {format : Format} (layout : Layout) : Binary format → Json
  | .finite value => number (value.numeral layout)
  | _ => null

end SynthGraph.Json
