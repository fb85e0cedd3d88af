import SynthGraph.Entries
import SynthGraph.Json.Tree
import SynthGraph.Number.Reading

namespace SynthGraph

/-!
# Documents

A document is what an engine reads: a tree of constants, numbers, texts, lists
and objects.  Objects hold their fields sorted by name, one field a name, so a
document has one written form.
-/

/-- A document; the fields of an object are sorted by name and not repeated. -/
inductive Document where
  | null
  | bool (value : Bool)
  | integer (value : Int)
  | float (value : Finite Format.double)
  | text (content : String)
  | list (items : List Document)
  | object (fields : List (String × Document))
  deriving Repr

namespace Document

/-- Named parts of a document. -/
abbrev Fields := Entries Document

namespace Fields

/-- Add the fields of an object; any other document has none to add. -/
def merge (fields : Fields) : Document → Fields
  | object additions => fields.insertAll additions
  | _ => fields

/-- Add the fields of an object if there is one. -/
def merge? (fields : Fields) : Option Document → Fields
  | some source => fields.merge source
  | none => fields

end Fields

/-- An object with the given fields, in any order. -/
def record (entries : List (String × Document)) : Document :=
  object (Entries.ofList entries)

/-- An object whose one field holds a body. -/
def keyed (key : String) (body : Fields) : Document :=
  object [(key, object body)]

/-- A natural number. -/
def natural (value : Nat) : Document :=
  integer value

/--
The document of a number: an integer when it is whole and fits 64 signed bits,
null when it is infinite or no number.
-/
def number : Double → Document
  | .finite value =>
      match value.whole? with
      | some whole => if whole.natAbs < power 2 63 then integer whole else float value
      | none => float value
  | _ => null

/-- The field of an object; other documents have no fields. -/
def field? (name : String) : Document → Option Document
  | object fields => Entries.get? name fields
  | _ => none

/-- The document itself, unless it is null. -/
def nonNull? : Document → Option Document
  | null => none
  | document => some document

/-- The field of an object if it is there and not null. -/
def present? (name : String) (document : Document) : Option Document :=
  (document.field? name).bind nonNull?

/-- The number a document holds, rounded to 64 bits. -/
def number? : Document → Option Double
  | integer value => some (Binary.ofInt Format.double value)
  | float value => some (.finite value)
  | _ => none

/-- The natural number a document holds as an integer. -/
def natural? : Document → Option Nat
  | integer (.ofNat value) => some value
  | _ => none

/-- The natural number a document holds, if eight bits can hold it. -/
def uint8? (document : Document) : Option UInt8 :=
  (document.natural?.filter (· < UInt8.size)).map UInt8.ofNat

/-- The natural number a document holds, if 32 bits can hold it. -/
def uint32? (document : Document) : Option UInt32 :=
  (document.natural?.filter (· < UInt32.size)).map UInt32.ofNat

/-- The text a document holds. -/
def text? : Document → Option String
  | text content => some content
  | _ => none

/-- The truth value a document holds. -/
def bool? : Document → Option Bool
  | bool value => some value
  | _ => none

/-- The items of a list. -/
def items? : Document → Option (List Document)
  | list items => some items
  | _ => none

/-- The number in a field. -/
def numberField? (name : String) (document : Document) : Option Double :=
  (document.field? name).bind number?

/-- A field is smaller than its object. -/
theorem sizeOf_field?
    {name : String}
    {document value : Document}
    (found : document.field? name = some value) :
    sizeOf value < sizeOf document := by
  cases document with
  | object fields =>
      simp only [field?] at found
      have smaller : sizeOf value < sizeOf fields := by
        fun_induction Entries.get? name fields with
        | case1 => simp at found
        | case2 first rest =>
            simp only [Option.some.injEq] at found
            subst found
            simp only [List.cons.sizeOf_spec, Prod.mk.sizeOf_spec]
            omega
        | case3 other first rest _ inductionHypothesis =>
            have := inductionHypothesis found
            simp only [List.cons.sizeOf_spec]
            omega
      simp only [object.sizeOf_spec]
      omega
  | _ => simp [field?] at found

/-- A field that is present is the field itself. -/
theorem field?_of_present?
    {name : String}
    {document value : Document}
    (found : document.present? name = some value) :
    document.field? name = some value := by
  obtain ⟨field, isField, kept⟩ := Option.bind_eq_some_iff.mp found
  cases field <;> simp_all [nonNull?]

/-- A field that is present is smaller than its object. -/
theorem sizeOf_present?
    {name : String}
    {document value : Document}
    (found : document.present? name = some value) :
    sizeOf value < sizeOf document :=
  sizeOf_field? (field?_of_present? found)

mutual

/-- The written form of a document. -/
def toJson : Document → Json
  | null => .null
  | bool value => .bool value
  | integer value => .number (Numeral.ofInt value)
  | float value => .number (value.numeral Layout.double)
  | text content => .string content
  | list items => .list (itemsToJson items)
  | object fields => .object (fieldsToJson fields)

/-- The written form of items. -/
def itemsToJson : List Document → List Json
  | [] => []
  | item :: rest => toJson item :: itemsToJson rest

/-- The written form of fields. -/
def fieldsToJson : List (String × Document) → List (Option String × Json)
  | [] => []
  | (name, value) :: rest => (some name, toJson value) :: fieldsToJson rest

end

/-- The text of a document on one line. -/
def compactText (document : Document) : String :=
  document.toJson.compactText

/-- The text of a document over several lines. -/
def prettyText (document : Document) : String :=
  document.toJson.prettyText

/-- A numeral as a document: kept as an integer, or rounded unless it is too large. -/
def ofNumeral? (numeral : Numeral) : Option Document :=
  match numeral.integer? with
  | some value => some (integer value)
  | none => numeral.double?.map float

mutual

/--
The document a tree spells.  Numbers too large for 64 bits and incomplete texts
spell none, and the last of several fields with one name counts.
-/
def ofJson? : Json → Option Document
  | .null => some null
  | .bool value => some (bool value)
  | .number numeral => ofNumeral? numeral
  | .text content => content.map text
  | .list items => (ofItems? items).map list
  | .object fields => (ofFields? [] fields).map object

/-- The documents that items spell. -/
def ofItems? : List Json → Option (List Document)
  | [] => some []
  | item :: rest =>
      match ofJson? item, ofItems? rest with
      | some item, some rest => some (item :: rest)
      | _, _ => none

/-- Add the fields that named trees spell. -/
def ofFields? (before : Fields) : List (Option String × Json) → Option Fields
  | [] => some before
  | (name, value) :: rest =>
      match name, ofJson? value with
      | some name, some value => ofFields? (Entries.insert name value before) rest
      | _, _ => none

end

/-- Documents may not nest deeper than this when they are read from a text. -/
def depthLimit : Nat := 127

/-- Read a text that holds exactly one document. -/
def read? (text : String) : Option Document :=
  match Json.read? text with
  | some tree => if tree.depth ≤ depthLimit then ofJson? tree else none
  | none => none

end Document

end SynthGraph
