import SynthGraph.Document

namespace SynthGraph

/-!
# Routing sequence definitions

A sequence definition is taken apart until every part acts on one channel.  Each
part stays inside copies of the wrappers that were around it.  What names no
known channel, or cannot be read, is dropped and counted.
-/

/-- Parts with the channels they go to, and how many parts were dropped. -/
structure Routing where
  parts : List (UInt8 × Document)
  dropped : Nat
  deriving Repr

namespace Routing

/-- One part for a channel. -/
def part (channel : UInt8) (document : Document) : Routing :=
  ⟨[(channel, document)], 0⟩

/-- One part that goes nowhere. -/
def drop : Routing :=
  ⟨[], 1⟩

/-- Nothing at all. -/
def nothing : Routing :=
  ⟨[], 0⟩

/-- One routing after another. -/
def append (first second : Routing) : Routing :=
  ⟨first.parts ++ second.parts, first.dropped + second.dropped⟩

/-- The keys of definitions that act on one channel, in the order they are looked for. -/
def channelKeys : List String :=
  ["play_note", "play_notes", "volume", "lpf_cutoff", "hpf_cutoff", "panning"]

/-- The keys of wrappers around an inner sequence, in the order they are looked for. -/
def wrapperKeys : List String :=
  ["repeat", "after", "before", "euclidian", "offset"]

/-- The first of several keys that is present, with its body. -/
def firstPresent? (keys : List String) (document : Document) : Option (String × Document) :=
  keys.findSome? fun key => (document.present? key).map (key, ·)

/-- An object with one field changed. -/
def withField (name : String) (value : Document) : Document → Document
  | .object fields => .object (Entries.insert name value fields)
  | document => document

/-- A wrapper around another inner sequence. -/
def rewrap (key : String) (body wrapper inner : Document) : Document :=
  withField key (withField "sequence" inner body) wrapper

/-- Every part inside a copy of a wrapper. -/
def rewrapAll (key : String) (body wrapper : Document) (routing : Routing) : Routing :=
  ⟨routing.parts.map fun part => (part.1, rewrap key body wrapper part.2), routing.dropped⟩

/-- The channel that the body of a channel key names. -/
def channelOf? (body : Document) : Option UInt8 :=
  (body.field? "channel").bind Document.uint8?

/-- The first present key holds a field of the document. -/
theorem sizeOf_firstPresent?
    {keys : List String}
    {document body : Document}
    {key : String}
    (found : firstPresent? keys document = some (key, body)) :
    sizeOf body < sizeOf document := by
  unfold firstPresent? at found
  obtain ⟨name, _, present⟩ := List.exists_of_findSome?_eq_some found
  simp only [Option.map_eq_some_iff, Prod.mk.injEq] at present
  obtain ⟨value, isPresent, _, rfl⟩ := present
  exact Document.sizeOf_present? isPresent

mutual

/-- Take a definition apart and route its parts to the known channels. -/
def route (known : List UInt8) (document : Document) : Routing :=
  match firstPresent? channelKeys document with
  | some (_, body) =>
      match channelOf? body with
      | some channel => if channel ∈ known then part channel document else drop
      | none => drop
  | none =>
  match _wrapper : firstPresent? wrapperKeys document with
  | some (key, body) =>
      match _inner : body.present? "sequence" with
      | some inner => rewrapAll key body document (route known inner)
      | none => drop
  | none =>
  match _combined : document.present? "combine" with
  | some (.list parts) => routeAll known parts
  | _ => drop
termination_by sizeOf document
decreasing_by
  · exact Nat.lt_trans (Document.sizeOf_present? _inner) (sizeOf_firstPresent? _wrapper)
  · have smaller := Document.sizeOf_present? _combined
    simp only [Document.list.sizeOf_spec] at smaller
    omega

/-- Route several definitions one after the other. -/
def routeAll (known : List UInt8) : List Document → Routing
  | [] => nothing
  | first :: rest => (route known first).append (routeAll known rest)
termination_by documents => sizeOf documents

end

end Routing

end SynthGraph
