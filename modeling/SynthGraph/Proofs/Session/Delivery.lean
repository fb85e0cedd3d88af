import Mathlib
import SynthGraph.Session.Basic
import SynthGraph.Proofs.Session.Leaves

namespace SynthGraph

/-!
# What a session delivers

Parts are delivered one by one, each to the first channel with its number.  After
definitions are assigned, the first channel with a number holds the leaves that
name it, in order; later channels with that number hold none; and the leaves that
are held and those that are counted as dropped are all leaves
(`Session.assign_eq_leaves`).
-/

namespace Session

open Routing

section Deliveries

/-- Definitions handed to the first channel with each number, after those it has. -/
def dealt (give : UInt8 → List Document) (seen : List UInt8) : List Channel → List Channel
  | [] => []
  | channel :: rest =>
      (if channel.number ∈ seen then
        channel
      else
        { channel with definitions := channel.definitions ++ give channel.number })
      :: dealt give (channel.number :: seen) rest

theorem dealt_congr
    {give other : UInt8 → List Document}
    {seen : List UInt8}
    (same : ∀ number, number ∉ seen → give number = other number)
    (channels : List Channel) :
    dealt give seen channels = dealt other seen channels := by
  induction channels generalizing seen with
  | nil =>
      rfl
  | cons channel rest inductionHypothesis =>
      have later :
          dealt give (channel.number :: seen) rest = dealt other (channel.number :: seen) rest := by
        apply inductionHypothesis
        intro number new
        exact same number fun isSeen => new (List.mem_cons_of_mem _ isSeen)
      rw [dealt, dealt, later]
      split
      · rfl
      · rename_i new
        rw [same _ new]

theorem dealt_nothing
    (seen : List UInt8)
    (channels : List Channel) :
    dealt (fun _ => []) seen channels = channels := by
  induction channels generalizing seen with
  | nil =>
      rfl
  | cons channel rest inductionHypothesis =>
      simp [dealt, inductionHypothesis]

/-- What one channel gets first and what all get later may be handed out at once. -/
theorem dealt_updateFirst
    {give : UInt8 → List Document}
    {seen : List UInt8}
    {number : UInt8}
    (new : number ∉ seen)
    (document : Document)
    (channels : List Channel) :
    dealt give seen
        (updateFirst number
          (fun channel => { channel with definitions := channel.definitions ++ [document] })
          channels) =
      dealt (fun other => if other = number then document :: give other else give other)
        seen channels := by
  induction channels generalizing seen with
  | nil =>
      rfl
  | cons channel rest inductionHypothesis =>
      rw [updateFirst]
      split
      · rename_i isFirst
        subst isFirst
        -- The number is taken from here on, so what later channels get does not depend on it.
        have later :
            dealt give (channel.number :: seen) rest =
              dealt
                (fun other => if other = channel.number then document :: give other else give other)
                (channel.number :: seen) rest := by
          apply dealt_congr
          intro other notSeen
          rw [List.mem_cons, not_or] at notSeen
          simp [notSeen.1]
        simp [dealt, new, later]
      · rename_i different
        have stillNew : number ∉ channel.number :: seen := by
          simp [new, Ne.symm different]
        simp [dealt, different, inductionHypothesis stillNew]

/-- Delivering parts one by one hands out all of them, each to the first channel it is for. -/
theorem foldl_deliver
    (session : Session)
    (parts : List (UInt8 × Document)) :
    parts.foldl deliver session =
      { session with
        channels :=
          dealt (fun number => (parts.filter (·.1 = number)).map Prod.snd) []
            session.channels } := by
  induction parts generalizing session with
  | nil =>
      simp [dealt_nothing]
  | cons part rest inductionHypothesis =>
      rw [List.foldl_cons, inductionHypothesis]
      simp only [deliver, updateChannel]
      rw [dealt_updateFirst (List.not_mem_nil)]
      congr 2
      funext number
      by_cases isFor : number = part.1
      · simp [isFor]
      · simp [isFor, Ne.symm isFor]

theorem dealt_eq_mapIdx
    (give : UInt8 → List Document)
    (seen : List UInt8)
    (channels : List Channel) :
    dealt give seen channels =
      channels.mapIdx fun index channel =>
        if channel.number ∈ seen ++ (channels.take index).map Channel.number then
          channel
        else
          { channel with definitions := channel.definitions ++ give channel.number } := by
  induction channels generalizing seen with
  | nil =>
      rfl
  | cons channel rest inductionHypothesis =>
      rw [dealt, inductionHypothesis, List.mapIdx_cons]
      congr 1
      · simp
      · congr 1
        funext index other
        have sameNumbers :
            other.number ∈ channel.number :: seen ++ (rest.take index).map Channel.number ↔
              other.number ∈
                seen ++ ((channel :: rest).take (index + 1)).map Channel.number := by
          simp only [List.cons_append, List.mem_cons, List.mem_append, List.take_succ_cons,
            List.map_cons]
          exact or_left_comm
        simp only [sameNumbers]

/-- The definitions of all channels together. -/
def routed (channels : List Channel) : Nat :=
  (channels.map (·.definitions.length)).sum

theorem numbers_deliver
    (session : Session)
    (part : UInt8 × Document) :
    (session.deliver part).channels.map Channel.number =
      session.channels.map Channel.number := by
  simp only [deliver, updateChannel]
  induction session.channels with
  | nil =>
      rfl
  | cons channel rest inductionHypothesis =>
      rw [updateFirst]
      split
      · rfl
      · simp [inductionHypothesis]

theorem routed_updateFirst
    {number : UInt8}
    {channels : List Channel}
    (isKnown : number ∈ channels.map Channel.number)
    (document : Document) :
    routed
        (updateFirst number
          (fun channel => { channel with definitions := channel.definitions ++ [document] })
          channels) =
      routed channels + 1 := by
  induction channels with
  | nil =>
      cases isKnown
  | cons channel rest inductionHypothesis =>
      rw [updateFirst]
      split
      · simp [routed]
        omega
      · rename_i different
        have later : number ∈ rest.map Channel.number := by
          simpa [Ne.symm different] using isKnown
        have step := inductionHypothesis later
        simp only [routed, List.map_cons, List.sum_cons] at step ⊢
        omega

theorem routed_withoutDefinitions
    (session : Session) :
    routed session.withoutDefinitions.channels = 0 := by
  simp only [routed, withoutDefinitions, List.map_map]
  induction session.channels with
  | nil =>
      rfl
  | cons channel rest inductionHypothesis =>
      simpa using inductionHypothesis

/-- As many definitions are delivered as there are parts. -/
theorem routed_foldl_deliver
    {session : Session}
    {parts : List (UInt8 × Document)}
    (areKnown : ∀ part ∈ parts, part.1 ∈ session.channels.map Channel.number) :
    routed (parts.foldl deliver session).channels = routed session.channels + parts.length := by
  induction parts generalizing session with
  | nil =>
      rfl
  | cons part rest inductionHypothesis =>
      rw [List.forall_mem_cons] at areKnown
      have stillKnown :
          ∀ other ∈ rest, other.1 ∈ (session.deliver part).channels.map Channel.number := by
        rw [numbers_deliver]
        exact areKnown.2
      have one : routed (session.deliver part).channels = routed session.channels + 1 :=
        routed_updateFirst areKnown.1 part.2
      rw [List.foldl_cons, inductionHypothesis stillKnown, one, List.length_cons]
      omega

end Deliveries

section Leaves

variable (session : Session) (leaves : List Leaf)

/-- Each first channel holds the leaves that name it, and no others hold any. -/
theorem foldl_deliver_leaves :
    (ofLeaves (session.channels.map Channel.number) leaves).parts.foldl deliver
        session.withoutDefinitions =
      { session with
        channels := session.channels.mapIdx fun index channel =>
          { channel with
            definitions :=
              if channel.number ∈ (session.channels.take index).map Channel.number then
                []
              else
                (leaves.filter (·.channel? = some channel.number.toNat)).map Leaf.document } } := by
  rw [foldl_deliver, dealt_eq_mapIdx]
  simp only [withoutDefinitions, Session.mk.injEq, true_and]
  apply List.ext_getElem?
  intro index
  simp only [List.getElem?_mapIdx, List.getElem?_map, List.nil_append]
  cases found : session.channels[index]? with
  | none =>
      rfl
  | some channel =>
      have isKnown : channel.number ∈ session.channels.map Channel.number :=
        List.mem_map_of_mem (List.mem_of_getElem? found)
      have sameNumbers :
          ((session.channels.map fun channel =>
              { channel with definitions := [] }).take index).map Channel.number =
            (session.channels.take index).map Channel.number := by
        simp [← List.map_take]
      simp only [Option.map_some, sameNumbers, parts_for _ leaves isKnown, List.nil_append]
      split <;> rfl

/-- No leaf is lost: what is dropped and what is delivered are all of them. -/
theorem dropped_add_routed :
    let routing := ofLeaves (session.channels.map Channel.number) leaves
    routing.dropped + routed (routing.parts.foldl deliver session.withoutDefinitions).channels =
      leaves.length := by
  intro routing
  have numbers :
      session.withoutDefinitions.channels.map Channel.number =
        session.channels.map Channel.number := by
    simp [withoutDefinitions]
  have areKnown :
      ∀ part ∈ routing.parts,
        part.1 ∈ session.withoutDefinitions.channels.map Channel.number := by
    intro part member
    rw [numbers]
    exact known_of_mem_parts _ leaves member
  have delivered := routed_foldl_deliver areKnown
  rw [routed_withoutDefinitions, Nat.zero_add] at delivered
  have whole : routing.parts.length + routing.dropped = leaves.length :=
    length_parts_add_dropped _ leaves
  omega

end Leaves

/-- Every leaf that names a channel is delivered to it, and every other leaf is counted. -/
theorem assign_eq_leaves
    (session : Session)
    (definitions : List Document) :
    let leaves := leavesAll definitions
    let (dropped, assigned) := session.assign definitions
    assigned =
        { session with
          channels := session.channels.mapIdx fun index channel =>
            { channel with
              definitions :=
                if channel.number ∈ (session.channels.take index).map Channel.number then
                  []
                else
                  (leaves.filter (·.channel? = some channel.number.toNat)).map Leaf.document } } ∧
      dropped + (assigned.channels.map (·.definitions.length)).sum = leaves.length := by
  intro leaves
  have routing :
      session.routing definitions = ofLeaves (session.channels.map Channel.number) leaves :=
    routeAll_eq_ofLeaves _ definitions
  simp only [assign, routing]
  exact ⟨foldl_deliver_leaves session leaves, dropped_add_routed session leaves⟩

end Session

end SynthGraph
