namespace SynthGraph.Record

/-!
# Fields of records

A record has declared fields.  Once the fields that are written have been put in
declared order, each one is read by its own rule: it has to be there, or has a
value of its own when it is not, or may be missing.
-/

variable {α β : Type}

/-- A record written as a list of its fields; the last ones may be missing. -/
def positional? (count : Nat) (items : List β) : Option (List (Option β)) :=
  if items.length ≤ count then
    some (items.map some ++ List.replicate (count - items.length) none)
  else
    none

/-- A field that has to be there. -/
def required? (read? : β → Option α) : Option β → Option α
  | some value => read? value
  | none => none

/-- A field that has a value of its own when it is not there. -/
def defaulted? (absent : α) (read? : β → Option α) : Option β → Option α
  | some value => read? value
  | none => some absent

/-- A field that may be missing. -/
def optional? (read? : β → Option α) : Option β → Option (Option α)
  | some value => (read? value).map some
  | none => some none

/-- Fields in declared order without those that are left out. -/
def present (fields : List (String × Option α)) : List (String × α) :=
  fields.filterMap fun field => field.2.map (field.1, ·)

end SynthGraph.Record
