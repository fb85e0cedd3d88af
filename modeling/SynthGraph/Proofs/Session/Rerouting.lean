import SynthGraph.Proofs.Entries
import SynthGraph.Proofs.Session.Delivery

namespace SynthGraph

/-!
# Routing again

A leaf that names a channel is taken apart into nothing but itself, so the
definitions that channels hold go to the same channels when they are routed
again, and each of them alone goes where it is (`Session.settled_assign`).
-/

namespace Document

/-- The value that is put somewhere last counts. -/
theorem replaceAt_replaceAt
    (document : Document)
    (path : List String)
    (value other : Document) :
    (document.replaceAt path other).replaceAt path value = document.replaceAt path value := by
  induction path generalizing document with
  | nil =>
      simp [replaceAt]
  | cons name path inductionHypothesis =>
      cases document with
      | object fields =>
          simp only [replaceAt, Entries.get?_insert_self, Option.getD_some, inductionHypothesis,
            Entries.insert_insert]
      | _ =>
          rfl

end Document

namespace Routing

section Fields

variable {key : String} {keys : List String} {document body : Document}

theorem present?_withField_of_ne
    {other : String}
    (different : other ≠ key)
    (value document : Document) :
    (withField key value document).present? other = document.present? other := by
  cases document with
  | object fields =>
      simp only [withField, Document.present?, Document.field?,
        Entries.get?_insert_of_ne different]
  | _ =>
      rfl

theorem present?_withField_self
    (isPresent : document.present? key = some body)
    (value : Document) :
    (withField key value document).present? key = value.nonNull? := by
  have field := Document.field?_of_present? isPresent
  cases document with
  | object fields =>
      simp only [withField, Document.present?, Document.field?, Entries.get?_insert_self,
        Option.bind_some]
  | _ =>
      cases field

theorem mem_of_firstPresent?
    (found : firstPresent? keys document = some (key, body)) :
    key ∈ keys := by
  obtain ⟨other, member, isFirst⟩ := List.exists_of_findSome?_eq_some found
  obtain ⟨_, _, same⟩ := Option.map_eq_some_iff.mp isFirst
  obtain ⟨rfl, _⟩ := Prod.mk.inj same
  exact member

/-- A new body for one key makes no difference to others that are looked for. -/
theorem firstPresent?_withField_of_notMem
    (notKey : key ∉ keys)
    (value document : Document) :
    firstPresent? keys (withField key value document) = firstPresent? keys document := by
  unfold firstPresent?
  induction keys with
  | nil =>
      rfl
  | cons other rest inductionHypothesis =>
      rw [List.mem_cons, not_or] at notKey
      rw [List.findSome?_cons, List.findSome?_cons, present?_withField_of_ne (Ne.symm notKey.1),
        inductionHypothesis notKey.2]

/-- The first key that is present still is with a new body. -/
theorem firstPresent?_withField_self
    (found : firstPresent? keys document = some (key, body))
    {value : Document}
    (nonNull : value.nonNull? = some value) :
    firstPresent? keys (withField key value document) = some (key, value) := by
  have isPresent := present?_of_firstPresent? found
  obtain ⟨before, other, after, whole, isFirst, absent⟩ := List.findSome?_eq_some_iff.mp found
  obtain rfl : other = key := by
    obtain ⟨_, _, same⟩ := Option.map_eq_some_iff.mp isFirst
    exact congrArg Prod.fst same
  refine List.findSome?_eq_some_iff.mpr ⟨before, other, after, whole, ?_, ?_⟩
  · rw [present?_withField_self isPresent, nonNull]
    rfl
  · intro earlier member
    have different : earlier ≠ other := by
      rintro rfl
      rw [absent earlier member] at isFirst
      cases isFirst
    rw [present?_withField_of_ne different]
    exact absent earlier member

end Fields

/-- No key names a channel as well as an inner sequence. -/
theorem notMem_channelKeys
    {key : String}
    (isWrapper : key ∈ wrapperKeys) :
    key ∉ channelKeys := by
  revert isWrapper
  revert key
  decide

/-- Null names no channel. -/
theorem nonNull?_of_names
    {leaf : Leaf}
    (alone : leaves leaf.document = [leaf])
    (names : leaf.channel?.isSome) :
    leaf.document.nonNull? = some leaf.document := by
  cases isNull : leaf.document with
  | null =>
      have leavesNull : leaves .null = [.bare .null] := by
        rw [leaves_eq]
        rfl
      rw [isNull, leavesNull, List.cons.injEq] at alone
      rw [← alone.1] at names
      cases names
  | _ =>
      rfl

/-- A wrapper around a leaf is taken apart as the wrapper was from which it was made. -/
theorem leaves_inside
    {key : String}
    {wrapper body inner : Document}
    (noChannel : firstPresent? channelKeys wrapper = none)
    (isWrapper : firstPresent? wrapperKeys wrapper = some (key, body))
    (isInner : body.present? "sequence" = some inner)
    {leaf : Leaf}
    (alone : leaves leaf.document = [leaf])
    (names : leaf.channel?.isSome) :
    leaves (leaf.inside key wrapper).document = [leaf.inside key wrapper] := by
  have isPresent := present?_of_firstPresent? isWrapper
  have isKey := mem_of_firstPresent? isWrapper
  have rewrapped :
      (leaf.inside key wrapper).document =
        withField key (withField "sequence" leaf.document body) wrapper :=
    (rewrap_eq_replaceAt isPresent isInner leaf.document).symm
  have bodyNonNull :
      (withField "sequence" leaf.document body).nonNull? =
        some (withField "sequence" leaf.document body) := by
    have isField := Document.field?_of_present? isInner
    cases body with
    | object fields =>
        rfl
    | _ =>
        cases isField
  have stillNoChannel :
      firstPresent? channelKeys (leaf.inside key wrapper).document = none := by
    rw [rewrapped, firstPresent?_withField_of_notMem (notMem_channelKeys isKey), noChannel]
  have stillWrapper :
      firstPresent? wrapperKeys (leaf.inside key wrapper).document =
        some (key, withField "sequence" leaf.document body) := by
    rw [rewrapped, firstPresent?_withField_self isWrapper bodyNonNull]
  have newInner :
      (withField "sequence" leaf.document body).present? "sequence" = some leaf.document := by
    rw [present?_withField_self isInner, nonNull?_of_names alone names]
  rw [leaves_eq, stillNoChannel]
  simp only [stillWrapper, newInner, alone, List.map_cons, List.map_nil]
  simp [Leaf.inside, Document.replaceAt_replaceAt]

/-- A leaf is all there is, is inside a wrapper, or belongs to a part of a combination. -/
theorem cases_of_mem_leaves
    {document : Document}
    {leaf : Leaf}
    (member : leaf ∈ leaves document) :
    leaf = .bare document ∨
      (∃ key body inner innerLeaf,
        firstPresent? channelKeys document = none ∧
          firstPresent? wrapperKeys document = some (key, body) ∧
          body.present? "sequence" = some inner ∧
          innerLeaf ∈ leaves inner ∧
          leaf = innerLeaf.inside key document) ∨
      ∃ parts, document.present? "combine" = some (.list parts) ∧ leaf ∈ leavesAll parts := by
  rw [leaves_eq] at member
  split at member
  · exact Or.inl (List.mem_singleton.mp member)
  · rename_i noChannel
    split at member
    · rename_i key body isWrapper
      split at member
      · rename_i inner isInner
        obtain ⟨innerLeaf, isLeaf, same⟩ := List.mem_map.mp member
        exact Or.inr (Or.inl
          ⟨key, body, inner, innerLeaf, noChannel, isWrapper, isInner, isLeaf, same.symm⟩)
      · exact Or.inl (List.mem_singleton.mp member)
    · split at member
      · rename_i parts isCombined
        exact Or.inr (Or.inr ⟨parts, isCombined, member⟩)
      · exact Or.inl (List.mem_singleton.mp member)

theorem leaves_bare
    {document : Document}
    (names : (Leaf.bare document).channel?.isSome) :
    leaves document = [.bare document] := by
  rw [leaves_eq]
  cases isChannel : firstPresent? channelKeys document with
  | some found =>
      rfl
  | none =>
      simp [Leaf.channel?, Leaf.bare, isChannel] at names

mutual

/-- A leaf that names a channel has no leaf but itself. -/
theorem leaves_of_mem
    {document : Document}
    {leaf : Leaf}
    (member : leaf ∈ leaves document)
    (names : leaf.channel?.isSome) :
    leaves leaf.document = [leaf] := by
  rcases cases_of_mem_leaves member with
    rfl |
    ⟨key, body, inner, innerLeaf, noChannel, isWrapper, isInner, isLeaf, rfl⟩ |
    ⟨parts, isCombined, isLeaf⟩
  · exact leaves_bare names
  · have smaller := sizeOf_inner isWrapper isInner
    exact leaves_inside noChannel isWrapper isInner (leaves_of_mem isLeaf names) names
  · have smaller := sizeOf_parts isCombined
    exact leaves_of_mem_all isLeaf names
termination_by sizeOf document

theorem leaves_of_mem_all
    {documents : List Document}
    {leaf : Leaf}
    (member : leaf ∈ leavesAll documents)
    (names : leaf.channel?.isSome) :
    leaves leaf.document = [leaf] := by
  cases documents with
  | nil =>
      rw [leavesAll] at member
      cases member
  | cons first rest =>
      rw [leavesAll] at member
      rcases List.mem_append.mp member with inFirst | inRest
      · exact leaves_of_mem inFirst names
      · exact leaves_of_mem_all inRest names
termination_by sizeOf documents

end

section Parts

variable {known : List UInt8}

/-- What was routed to a channel goes there again. -/
theorem route_of_mem_parts
    {definitions : List Document}
    {number : UInt8}
    {document : Document}
    (member : (number, document) ∈ (routeAll known definitions).parts) :
    route known document = part number document := by
  rw [routeAll_eq_ofLeaves] at member
  obtain ⟨leaf, isLeaf, isDelivered⟩ := List.mem_filterMap.mp member
  obtain ⟨_, names, rfl⟩ := deliverable?_eq_some known isDelivered
  have alone := leaves_of_mem_all isLeaf (by rw [names]; rfl)
  rw [route_eq_ofLeaves, alone, ofLeaves_singleton, isDelivered]

theorem routeAll_of_parts
    {parts : List (UInt8 × Document)}
    (again : ∀ delivered ∈ parts, route known delivered.2 = part delivered.1 delivered.2) :
    routeAll known (parts.map Prod.snd) = ⟨parts, 0⟩ := by
  induction parts with
  | nil =>
      rw [List.map_nil, routeAll]
      rfl
  | cons delivered rest inductionHypothesis =>
      rw [List.forall_mem_cons] at again
      rw [List.map_cons, routeAll, again.1, inductionHypothesis again.2]
      rfl

end Parts

end Routing

namespace Session

open Routing

section Collecting

variable {parts : List (UInt8 × Document)} {seen numbers : List UInt8} {number : UInt8}

/-- The documents of the parts that go to a channel. -/
def partsFor (parts : List (UInt8 × Document)) (number : UInt8) : List Document :=
  (parts.filter (·.1 = number)).map Prod.snd

/-- Parts channel by channel: those of a number stand where the number comes first. -/
def collected
    (parts : List (UInt8 × Document))
    (seen : List UInt8) :
    List UInt8 → List (UInt8 × Document)
  | [] => []
  | number :: rest =>
      let later := collected parts (number :: seen) rest
      if number ∈ seen then later else parts.filter (·.1 = number) ++ later

theorem mem_collected
    {delivered : UInt8 × Document}
    (member : delivered ∈ collected parts seen numbers) :
    delivered ∈ parts ∧ delivered.1 ∉ seen := by
  induction numbers generalizing seen with
  | nil =>
      cases member
  | cons number rest inductionHypothesis =>
      have ofLater (isLater : delivered ∈ collected parts (number :: seen) rest) :
          delivered ∈ parts ∧ delivered.1 ∉ seen := by
        obtain ⟨isPart, unseen⟩ := inductionHypothesis isLater
        rw [List.mem_cons, not_or] at unseen
        exact ⟨isPart, unseen.2⟩
      rw [collected] at member
      split at member
      · exact ofLater member
      · rename_i new
        rcases List.mem_append.mp member with here | isLater
        · obtain ⟨isPart, isNumber⟩ := List.mem_filter.mp here
          exact ⟨isPart, of_decide_eq_true isNumber ▸ new⟩
        · exact ofLater isLater

/-- Collecting parts keeps those of one number, in their order. -/
theorem filter_collected
    (new : number ∉ seen)
    (isNumber : number ∈ numbers) :
    (collected parts seen numbers).filter (·.1 = number) = parts.filter (·.1 = number) := by
  induction numbers generalizing seen with
  | nil =>
      cases isNumber
  | cons first rest inductionHypothesis =>
      rw [collected]
      by_cases isFirst : number = first
      · subst isFirst
        have noneLater :
            (collected parts (number :: seen) rest).filter (·.1 = number) = [] := by
          rw [List.filter_eq_nil_iff]
          intro delivered member isDelivered
          have unseen := (mem_collected member).2
          exact unseen (of_decide_eq_true isDelivered ▸ List.mem_cons_self)
        simp [new, noneLater]
      · have inRest : number ∈ rest := (List.mem_cons.mp isNumber).resolve_left isFirst
        have stillNew : number ∉ first :: seen := by
          simp [new, isFirst]
        have noneHere :
            (parts.filter (·.1 = first)).filter (·.1 = number) = [] := by
          rw [List.filter_filter, List.filter_eq_nil_iff]
          intro delivered _ both
          simp only [Bool.and_eq_true, decide_eq_true_eq] at both
          exact isFirst (both.1.symm.trans both.2)
        have later := inductionHypothesis stillNew inRest
        split
        · exact later
        · rw [List.filter_append, noneHere, List.nil_append, later]

/-- Where only parts for the given numbers are collected, none is lost for any number. -/
theorem partsFor_collected
    (areKnown : ∀ delivered ∈ parts, delivered.1 ∈ numbers) :
    partsFor (collected parts [] numbers) = partsFor parts := by
  funext number
  unfold partsFor
  by_cases isNumber : number ∈ numbers
  · rw [filter_collected List.not_mem_nil isNumber]
  · have noneFor : ∀ delivered ∈ parts, ¬ delivered.1 = number := by
      rintro delivered member rfl
      exact isNumber (areKnown delivered member)
    have noPart : parts.filter (·.1 = number) = [] := by
      simpa [List.filter_eq_nil_iff] using noneFor
    have noneCollected : (collected parts [] numbers).filter (·.1 = number) = [] := by
      rw [List.filter_eq_nil_iff]
      intro delivered member isFor
      exact noneFor delivered (mem_collected member).1 (of_decide_eq_true isFor)
    rw [noPart, noneCollected]

/-- The definitions of all channels are the parts that were dealt to them, collected. -/
theorem definitions_dealt
    {channels : List Channel}
    (empty : ∀ channel ∈ channels, channel.definitions = [])
    (parts : List (UInt8 × Document))
    (seen : List UInt8) :
    (dealt (partsFor parts) seen channels).flatMap Channel.definitions =
      (collected parts seen (channels.map Channel.number)).map Prod.snd := by
  induction channels generalizing seen with
  | nil =>
      rfl
  | cons channel rest inductionHypothesis =>
      rw [List.forall_mem_cons] at empty
      rw [dealt, List.map_cons, collected, List.flatMap_cons, inductionHypothesis empty.2]
      split
      · rw [empty.1, List.nil_append]
      · rw [empty.1, List.nil_append, List.map_append, partsFor]

theorem dealt_withoutDefinitions
    (give : UInt8 → List Document)
    (seen : List UInt8)
    (channels : List Channel) :
    (dealt give seen channels).map (fun channel => { channel with definitions := [] }) =
      channels.map fun channel => { channel with definitions := [] } := by
  induction channels generalizing seen with
  | nil =>
      rfl
  | cons channel rest inductionHypothesis =>
      rw [dealt, List.map_cons, List.map_cons, inductionHypothesis]
      split <;> rfl

end Collecting

/-- A session whose definitions are routed: routing them again changes nothing. -/
structure Settled (session : Session) : Prop where
  /-- Routed all together, in the order of the channels, they stay as they are. -/
  together :
    session.assign (session.channels.flatMap Channel.definitions) = (0, session)
  /-- Routed alone, each goes to the channel that holds it, and to no other. -/
  alone :
    ∀ (index : Nat) channel definition,
      session.channels[index]? = some channel →
        definition ∈ channel.definitions →
          session.assign [definition] =
            (0,
              { session with
                channels := session.channels.mapIdx fun other channel =>
                  { channel with definitions := if other = index then [definition] else [] } })

section Assigned

variable (session : Session) (definitions : List Document)

theorem assign_eq_dealt :
    session.assign definitions =
      ((session.routing definitions).dropped,
        { session with
          channels :=
            dealt (partsFor (session.routing definitions).parts) []
              session.withoutDefinitions.channels }) := by
  rw [assign, foldl_deliver]
  rfl

theorem withoutDefinitions_assign :
    (session.assign definitions).2.withoutDefinitions = session.withoutDefinitions := by
  rw [assign_eq_dealt, withoutDefinitions, dealt_withoutDefinitions, withoutDefinitions,
    List.map_map]
  rfl

theorem numbers_withoutDefinitions :
    session.withoutDefinitions.channels.map Channel.number =
      session.channels.map Channel.number := by
  rw [withoutDefinitions, List.map_map]
  rfl

theorem numbers_take_withoutDefinitions
    (index : Nat) :
    (session.withoutDefinitions.channels.take index).map Channel.number =
      (session.channels.take index).map Channel.number := by
  rw [List.map_take, numbers_withoutDefinitions, List.map_take]

theorem numbers_assign :
    (session.assign definitions).2.channels.map Channel.number =
      session.channels.map Channel.number := by
  rw [← numbers_withoutDefinitions, withoutDefinitions_assign, numbers_withoutDefinitions]

/-- All the definitions that channels hold go back to where they are. -/
theorem assign_together :
    let assigned := (session.assign definitions).2
    assigned.assign (assigned.channels.flatMap Channel.definitions) = (0, assigned) := by
  intro assigned
  let numbers := session.channels.map Channel.number
  let parts := (session.routing definitions).parts
  have isDealt :
      assigned = { session with
        channels := dealt (partsFor parts) [] session.withoutDefinitions.channels } :=
    congrArg Prod.snd (assign_eq_dealt session definitions)
  have held :
      assigned.channels.flatMap Channel.definitions =
        (collected parts [] numbers).map Prod.snd := by
    have empty :
        ∀ channel ∈ session.withoutDefinitions.channels, channel.definitions = [] := by
      simp [withoutDefinitions]
    have dealtParts := definitions_dealt empty parts []
    rw [numbers_withoutDefinitions] at dealtParts
    rw [isDealt, dealtParts]
  have routing :
      assigned.routing (assigned.channels.flatMap Channel.definitions) =
        ⟨collected parts [] numbers, 0⟩ := by
    rw [Session.routing, numbers_assign, held]
    exact routeAll_of_parts fun _ member => route_of_mem_parts (mem_collected member).1
  have areKnown : ∀ delivered ∈ parts, delivered.1 ∈ numbers := by
    intro delivered member
    have isPart : delivered ∈ (routeAll numbers definitions).parts := member
    rw [routeAll_eq_ofLeaves] at isPart
    exact known_of_mem_parts numbers _ isPart
  rw [assign_eq_dealt, routing, withoutDefinitions_assign, partsFor_collected areKnown]
  rw [isDealt]

variable {session definitions} {index : Nat} {channel : Channel} {definition : Document}

/-- Only the first channel with a number holds definitions, those that were routed to it. -/
theorem routed_of_held
    (found : (session.assign definitions).2.channels[index]? = some channel)
    (isHeld : definition ∈ channel.definitions) :
    (channel.number, definition) ∈ (session.routing definitions).parts ∧
      channel.number ∉ (session.channels.take index).map Channel.number := by
  simp only [assign_eq_dealt, dealt_eq_mapIdx, List.nil_append, List.getElem?_mapIdx,
    Option.map_eq_some_iff, numbers_take_withoutDefinitions] at found
  obtain ⟨emptied, atIndex, isDealt⟩ := found
  have isEmpty : emptied.definitions = [] := by
    obtain ⟨_, _, rfl⟩ := List.mem_map.mp (List.mem_of_getElem? atIndex)
    rfl
  split at isDealt
  · rw [← isDealt, isEmpty] at isHeld
    cases isHeld
  · rename_i isFirst
    subst isDealt
    rw [isEmpty, List.nil_append] at isHeld
    obtain ⟨⟨number, document⟩, isPart, rfl⟩ := List.mem_map.mp isHeld
    obtain ⟨member, isNumber⟩ := List.mem_filter.mp isPart
    obtain rfl := of_decide_eq_true isNumber
    exact ⟨member, isFirst⟩

/-- A definition that goes to one channel is all that the channels hold then. -/
theorem assign_single
    (found : session.channels[index]? = some channel)
    (isFirst : channel.number ∉ (session.channels.take index).map Channel.number)
    (routed :
      route (session.channels.map Channel.number) definition = part channel.number definition) :
    session.assign [definition] =
      (0,
        { session with
          channels := session.channels.mapIdx fun other channel =>
            { channel with definitions := if other = index then [definition] else [] } }) := by
  have routing : session.routing [definition] = ⟨[(channel.number, definition)], 0⟩ := by
    rw [Session.routing, routeAll, routed, routeAll]
    rfl
  rw [assign_eq_dealt, routing, dealt_eq_mapIdx]
  congr 2
  apply List.ext_getElem?
  intro other
  simp only [List.nil_append, numbers_take_withoutDefinitions, List.getElem?_mapIdx]
  rw [withoutDefinitions, List.getElem?_map]
  cases atOther : session.channels[other]? with
  | none =>
      rfl
  | some otherChannel =>
      simp only [Option.map_some, List.nil_append]
      by_cases isIndex : other = index
      · subst isIndex
        obtain rfl : otherChannel = channel := Option.some.inj (atOther.symm.trans found)
        rw [if_neg isFirst]
        simp [partsFor]
      · have notFirst :
            otherChannel.number = channel.number →
              otherChannel.number ∈ (session.channels.take other).map Channel.number := by
          intro same
          rcases Nat.lt_or_gt_of_ne isIndex with before | after
          · -- The first channel with the number is the one that holds the definition.
            rw [← same] at isFirst
            have earlier := (List.getElem?_take_of_lt before).trans atOther
            exact absurd (List.mem_map_of_mem (List.mem_of_getElem? earlier)) isFirst
          · rw [same]
            have earlier := (List.getElem?_take_of_lt after).trans found
            exact List.mem_map_of_mem (List.mem_of_getElem? earlier)
        by_cases isFor : otherChannel.number = channel.number
        · rw [if_pos (notFirst isFor), if_neg isIndex]
        · have noPart : partsFor [(channel.number, definition)] otherChannel.number = [] := by
            simp [partsFor, Ne.symm isFor]
          rw [noPart, if_neg isIndex, ite_self]

/-- A definition that a channel holds goes back there when it is routed alone. -/
theorem assign_alone
    (found : (session.assign definitions).2.channels[index]? = some channel)
    (isHeld : definition ∈ channel.definitions) :
    let assigned := (session.assign definitions).2
    assigned.assign [definition] =
      (0,
        { assigned with
          channels := assigned.channels.mapIdx fun other channel =>
            { channel with definitions := if other = index then [definition] else [] } }) := by
  intro assigned
  obtain ⟨isPart, isFirst⟩ := routed_of_held found isHeld
  apply assign_single found
  · rw [List.map_take, numbers_assign, ← List.map_take]
    exact isFirst
  · rw [numbers_assign]
    exact route_of_mem_parts isPart

end Assigned

/-- Whatever is assigned to a session, the session is settled then. -/
theorem settled_assign
    (session : Session)
    (definitions : List Document) :
    (session.assign definitions).2.Settled where
  together := assign_together session definitions
  alone _ _ _ found isHeld := assign_alone found isHeld

end Session

end SynthGraph
