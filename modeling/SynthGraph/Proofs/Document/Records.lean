import SynthGraph.Document
import SynthGraph.Proofs.Entries

namespace SynthGraph.Document

/-!
# Fields of written records

A record whose fields have different names holds each of them, and no others.
-/

variable {entries : List (String × Document)} {name : String} {value : Document}

theorem field?_record
    (namesNodup : (entries.map Prod.fst).Nodup)
    (member : (name, value) ∈ entries) :
    (record entries).field? name = some value :=
  Entries.get?_ofList namesNodup member

theorem field?_record_of_notMem
    (absent : name ∉ entries.map Prod.fst) :
    (record entries).field? name = none :=
  Entries.get?_insertAll_of_notMem absent []

end SynthGraph.Document
