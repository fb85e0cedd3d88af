import SynthGraph.Session.Routing

namespace SynthGraph

/-!
# The leaves of sequence definitions

The leaves of a definition are its smallest parts, each in copies of the wrappers
that stand around it.  They are defined without a word about channels.  Routing a
definition delivers exactly the leaves that name a known channel, in order, and
drops the others (`Routing.route_eq_ofLeaves`).
-/

/-- The document with the value at a path of fields replaced. -/
def Document.replaceAt : Document → List String → Document → Document
  | _, [], value => value
  | .object fields, name :: path, value =>
      let inner := (Entries.get? name fields).getD .null
      .object (Entries.insert name (replaceAt inner path value) fields)
  | document, _ :: _, _ => document

namespace Routing

/-- The smallest part of a definition, alone and inside the wrappers around it. -/
structure Leaf where
  part : Document
  document : Document

namespace Leaf

/-- A part without wrappers. -/
def bare (part : Document) : Leaf :=
  ⟨part, part⟩

/-- A leaf inside a copy of one more wrapper. -/
def inside (key : String) (wrapper : Document) (leaf : Leaf) : Leaf :=
  { leaf with document := wrapper.replaceAt [key, "sequence"] leaf.document }

/-- The channel that a leaf names at the first channel key it has. -/
def channel? (leaf : Leaf) : Option Nat := do
  let (_, body) ← firstPresent? channelKeys leaf.part
  let channel ← body.field? "channel"
  channel.natural?

end Leaf

mutual

/-- The leaves of a definition, in order. -/
def leaves (document : Document) : List Leaf :=
  match firstPresent? channelKeys document with
  | some _ => [.bare document]
  | none =>
  match _wrapper : firstPresent? wrapperKeys document with
  | some (key, body) =>
      match _inner : body.present? "sequence" with
      | some inner => (leaves inner).map (.inside key document)
      | none => [.bare document]
  | none =>
  match _combined : document.present? "combine" with
  | some (.list parts) => leavesAll parts
  | _ => [.bare document]
termination_by sizeOf document
decreasing_by
  · exact Nat.lt_trans (Document.sizeOf_present? _inner) (sizeOf_firstPresent? _wrapper)
  · have smaller := Document.sizeOf_present? _combined
    simp only [Document.list.sizeOf_spec] at smaller
    omega

/-- The leaves of several definitions, one after the other. -/
def leavesAll : List Document → List Leaf
  | [] => []
  | first :: rest => leaves first ++ leavesAll rest
termination_by documents => sizeOf documents

end

/-- The part that a leaf delivers to one of the known channels. -/
def deliverable? (known : List UInt8) (leaf : Leaf) : Option (UInt8 × Document) :=
  (known.find? fun number => leaf.channel? = some number.toNat).map (·, leaf.document)

/-- The routing of leaves. -/
def ofLeaves (known : List UInt8) (leaves : List Leaf) : Routing :=
  ⟨leaves.filterMap (deliverable? known),
    leaves.countP fun leaf => (deliverable? known leaf).isNone⟩

section Leaves

variable (known : List UInt8)

theorem leaves_eq
    (document : Document) :
    leaves document =
      match firstPresent? channelKeys document with
      | some _ => [.bare document]
      | none =>
      match firstPresent? wrapperKeys document with
      | some (key, body) =>
          match body.present? "sequence" with
          | some inner => (leaves inner).map (.inside key document)
          | none => [.bare document]
      | none =>
      match document.present? "combine" with
      | some (.list parts) => leavesAll parts
      | _ => [.bare document] := by
  rw [leaves]
  cases firstPresent? channelKeys document with
  | some found =>
      rfl
  | none =>
      cases firstPresent? wrapperKeys document with
      | some found =>
          obtain ⟨key, body⟩ := found
          simp only
          cases body.present? "sequence" <;> rfl
      | none =>
          cases document.present? "combine" with
          | none =>
              rfl
          | some value =>
              cases value <;> rfl

theorem route_eq
    (document : Document) :
    route known document =
      match firstPresent? channelKeys document with
      | some (_, body) =>
          match channelOf? body with
          | some channel => if channel ∈ known then part channel document else drop
          | none => drop
      | none =>
      match firstPresent? wrapperKeys document with
      | some (key, body) =>
          match body.present? "sequence" with
          | some inner => rewrapAll key body document (route known inner)
          | none => drop
      | none =>
      match document.present? "combine" with
      | some (.list parts) => routeAll known parts
      | _ => drop := by
  rw [route]
  cases firstPresent? channelKeys document with
  | some found =>
      rfl
  | none =>
      cases firstPresent? wrapperKeys document with
      | some found =>
          obtain ⟨key, body⟩ := found
          simp only
          cases body.present? "sequence" <;> rfl
      | none =>
          cases document.present? "combine" with
          | none =>
              rfl
          | some value =>
              cases value <;> rfl

theorem uint8?_eq_some_iff
    {document : Document}
    {number : UInt8} :
    document.uint8? = some number ↔ document.natural? = some number.toNat := by
  unfold Document.uint8?
  cases document.natural? with
  | none =>
      simp
  | some value =>
      by_cases small : value < UInt8.size
      · simp only [Option.filter_some, small, decide_true, if_true, Option.map_some,
          Option.some.injEq]
        constructor
        · rintro rfl
          exact (UInt8.toNat_ofNat_of_lt small).symm
        · rintro rfl
          exact UInt8.ofNat_toNat
      · simp only [Option.filter_some, small, decide_false, Bool.false_eq_true, if_false,
          Option.map_none, reduceCtorEq, Option.some.injEq, false_iff]
        rintro rfl
        exact small number.toNat_lt

theorem channelOf?_eq_some_iff
    {body : Document}
    {number : UInt8} :
    channelOf? body = some number ↔
      (body.field? "channel").bind Document.natural? = some number.toNat := by
  unfold channelOf?
  cases body.field? "channel" with
  | none =>
      simp
  | some value =>
      exact uint8?_eq_some_iff

theorem find?_eq_ite
    (number : UInt8) :
    (known.find? fun other => some number = some other) =
      if number ∈ known then some number else none := by
  split
  · rename_i isKnown
    cases found : known.find? fun other => some number = some other with
    | none =>
        simpa using List.find?_eq_none.mp found number isKnown
    | some other =>
        simpa [eq_comm] using List.find?_some found
  · rename_i unknown
    rw [List.find?_eq_none]
    intro other isKnown same
    simp only [Option.some.injEq, decide_eq_true_eq] at same
    exact unknown (same ▸ isKnown)

/-- A leaf with a channel key goes to the channel that the body of the key names. -/
theorem deliverable?_bare
    {document body : Document}
    {key : String}
    (isChannel : firstPresent? channelKeys document = some (key, body)) :
    deliverable? known (.bare document) =
      match channelOf? body with
      | some number => if number ∈ known then some (number, document) else none
      | none => none := by
  have names (number : UInt8) :
      (Leaf.bare document).channel? = some number.toNat ↔ channelOf? body = some number := by
    rw [channelOf?_eq_some_iff]
    simp [Leaf.channel?, Leaf.bare, isChannel]
  simp only [deliverable?, names]
  cases channelOf? body with
  | none =>
      simp
  | some number =>
      simp only [find?_eq_ite]
      split <;> rfl

theorem ofLeaves_singleton
    (leaf : Leaf) :
    ofLeaves known [leaf] =
      match deliverable? known leaf with
      | some (number, document) => part number document
      | none => drop := by
  cases isDelivered : deliverable? known leaf with
  | none =>
      simp [ofLeaves, isDelivered, drop]
  | some delivered =>
      simp [ofLeaves, isDelivered, part]

theorem ofLeaves_bare
    {document : Document}
    (unreadable : firstPresent? channelKeys document = none) :
    ofLeaves known [.bare document] = drop := by
  have names : (Leaf.bare document).channel? = none := by
    simp [Leaf.bare, Leaf.channel?, unreadable]
  have undelivered : deliverable? known (.bare document) = none := by
    simp [deliverable?, names]
  rw [ofLeaves_singleton, undelivered]

theorem ofLeaves_append
    (first second : List Leaf) :
    ofLeaves known (first ++ second) = (ofLeaves known first).append (ofLeaves known second) := by
  simp [ofLeaves, append]

theorem present?_of_firstPresent?
    {keys : List String}
    {document body : Document}
    {key : String}
    (found : firstPresent? keys document = some (key, body)) :
    document.present? key = some body := by
  obtain ⟨name, _, isPresent⟩ := List.exists_of_findSome?_eq_some found
  obtain ⟨value, present, same⟩ := Option.map_eq_some_iff.mp isPresent
  obtain ⟨rfl, rfl⟩ := Prod.mk.inj same
  exact present

/-- What a wrapper is around is smaller than the wrapper. -/
theorem sizeOf_inner
    {keys : List String}
    {document body inner : Document}
    {key name : String}
    (isWrapper : firstPresent? keys document = some (key, body))
    (isInner : body.present? name = some inner) :
    sizeOf inner < sizeOf document :=
  Nat.lt_trans (Document.sizeOf_present? isInner) (sizeOf_firstPresent? isWrapper)

theorem sizeOf_parts
    {document : Document}
    {name : String}
    {parts : List Document}
    (isCombined : document.present? name = some (.list parts)) :
    sizeOf parts < sizeOf document := by
  have listSmaller := Document.sizeOf_present? isCombined
  rw [Document.list.sizeOf_spec] at listSmaller
  omega

/-- Wrapping a part again replaces the inner sequence of the wrapper. -/
theorem rewrap_eq_replaceAt
    {key : String}
    {body wrapper inner : Document}
    (isWrapper : wrapper.present? key = some body)
    (isInner : body.present? "sequence" = some inner)
    (value : Document) :
    rewrap key body wrapper value = wrapper.replaceAt [key, "sequence"] value := by
  have wrapperField := Document.field?_of_present? isWrapper
  have bodyField := Document.field?_of_present? isInner
  cases wrapper with
  | object fields =>
      simp only [Document.field?] at wrapperField
      cases body with
      | object bodyFields =>
          simp [rewrap, withField, Document.replaceAt, wrapperField]
      | _ =>
          cases bodyField
  | _ =>
      cases wrapperField

theorem ofLeaves_inside
    {key : String}
    {body wrapper inner : Document}
    (isWrapper : wrapper.present? key = some body)
    (isInner : body.present? "sequence" = some inner)
    (leaves : List Leaf) :
    ofLeaves known (leaves.map (.inside key wrapper)) =
      rewrapAll key body wrapper (ofLeaves known leaves) := by
  have delivered (leaf : Leaf) :
      deliverable? known (leaf.inside key wrapper) =
        (deliverable? known leaf).map fun part => (part.1, rewrap key body wrapper part.2) := by
    simp only [deliverable?, Option.map_map, rewrap_eq_replaceAt isWrapper isInner]
    rfl
  simp only [ofLeaves, rewrapAll, List.filterMap_map, List.map_filterMap, List.countP_map,
    Function.comp_def, delivered, Option.isNone_map]

mutual

/-- Routing a definition is routing its leaves. -/
theorem route_eq_ofLeaves
    (document : Document) :
    route known document = ofLeaves known (leaves document) := by
  rw [route_eq, leaves_eq]
  cases isChannel : firstPresent? channelKeys document with
  | some found =>
      simp only [ofLeaves_singleton, deliverable?_bare known isChannel]
      cases channelOf? found.2 with
      | none =>
          rfl
      | some number =>
          by_cases isKnown : number ∈ known <;> simp [isKnown]
  | none =>
      cases isWrapper : firstPresent? wrapperKeys document with
      | some found =>
          obtain ⟨key, body⟩ := found
          simp only
          cases isInner : body.present? "sequence" with
          | none =>
              exact (ofLeaves_bare known isChannel).symm
          | some inner =>
              have smaller := sizeOf_inner isWrapper isInner
              have isPresent := present?_of_firstPresent? isWrapper
              simp only [route_eq_ofLeaves inner, ofLeaves_inside known isPresent isInner]
      | none =>
          cases isCombined : document.present? "combine" with
          | none =>
              exact (ofLeaves_bare known isChannel).symm
          | some value =>
              cases value with
              | list parts =>
                  have smaller := sizeOf_parts isCombined
                  exact routeAll_eq_ofLeaves parts
              | _ =>
                  exact (ofLeaves_bare known isChannel).symm
termination_by sizeOf document

theorem routeAll_eq_ofLeaves
    (documents : List Document) :
    routeAll known documents = ofLeaves known (leavesAll documents) := by
  cases documents with
  | nil =>
      rw [routeAll, leavesAll]
      rfl
  | cons first rest =>
      rw [routeAll, leavesAll, ofLeaves_append, route_eq_ofLeaves first, routeAll_eq_ofLeaves rest]
termination_by sizeOf documents

end

end Leaves

section Delivered

variable (known : List UInt8) (leaves : List Leaf)

theorem deliverable?_eq_some
    {leaf : Leaf}
    {number : UInt8}
    {document : Document}
    (isDelivered : deliverable? known leaf = some (number, document)) :
    number ∈ known ∧ leaf.channel? = some number.toNat ∧ leaf.document = document := by
  obtain ⟨other, found, same⟩ := Option.map_eq_some_iff.mp isDelivered
  obtain ⟨rfl, rfl⟩ := Prod.mk.inj same
  have names : leaf.channel? = some other.toNat := by
    simpa using List.find?_some found
  exact ⟨List.mem_of_find?_eq_some found, names, rfl⟩

theorem deliverable?_of_names
    {leaf : Leaf}
    {number : UInt8}
    (isKnown : number ∈ known)
    (names : leaf.channel? = some number.toNat) :
    deliverable? known leaf = some (number, leaf.document) := by
  have same (other : UInt8) : some number.toNat = some other.toNat ↔ some number = some other := by
    simp [UInt8.toNat_inj]
  simp only [deliverable?, names, same, find?_eq_ite, isKnown, if_true, Option.map_some]

/-- A channel gets the leaves that name it, in order. -/
theorem parts_for
    {number : UInt8}
    (isKnown : number ∈ known) :
    ((ofLeaves known leaves).parts.filter (·.1 = number)).map Prod.snd =
      (leaves.filter (·.channel? = some number.toNat)).map Leaf.document := by
  induction leaves with
  | nil =>
      rfl
  | cons leaf rest inductionHypothesis =>
      simp only [ofLeaves] at inductionHypothesis ⊢
      by_cases names : leaf.channel? = some number.toNat
      · have isDelivered := deliverable?_of_names known isKnown names
        simp [isDelivered, names, inductionHypothesis]
      · cases isDelivered : deliverable? known leaf with
        | none =>
            simp [isDelivered, names, inductionHypothesis]
        | some delivered =>
            have different : delivered.1 ≠ number := by
              rintro rfl
              exact names (deliverable?_eq_some known isDelivered).2.1
            simp [isDelivered, names, different, inductionHypothesis]

/-- Every leaf is delivered or dropped. -/
theorem length_parts_add_dropped :
    (ofLeaves known leaves).parts.length + (ofLeaves known leaves).dropped = leaves.length := by
  induction leaves with
  | nil =>
      rfl
  | cons leaf rest inductionHypothesis =>
      simp only [ofLeaves] at inductionHypothesis ⊢
      cases isDelivered : deliverable? known leaf with
      | none =>
          simp [isDelivered]
          omega
      | some delivered =>
          simp [isDelivered]
          omega

theorem known_of_mem_parts
    {number : UInt8}
    {document : Document}
    (member : (number, document) ∈ (ofLeaves known leaves).parts) :
    number ∈ known := by
  obtain ⟨leaf, _, isDelivered⟩ := List.mem_filterMap.mp member
  exact (deliverable?_eq_some known isDelivered).1

end Delivered

end Routing

end SynthGraph
