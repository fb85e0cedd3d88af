import Mathlib.Data.List.Induction
import Mathlib.Tactic.Push
import SynthGraph.GraphFile.Basic

namespace SynthGraph

/-!
# Legal graph files

What a file must say to describe a graph, read off its kind, its nodes and its
connections alone.  A file that is not legal has a first fault, and the rules
here say which one that is (`GraphFile.legal_or_refused`).
-/

namespace FileConnection

/-- The end of a connection that is named first; nodes are numbered like modules. -/
def fromEnd (connection : FileConnection) : Endpoint :=
  ⟨connection.fromNode.toNat, connection.fromSocket⟩

/-- The end of a connection that is named second. -/
def toEnd (connection : FileConnection) : Endpoint :=
  ⟨connection.toNode.toNat, connection.toSocket⟩

/-- Whether two connections have the same two ends, in either order. -/
def JoinsSame (connection other : FileConnection) : Prop :=
  connection.fromEnd = other.fromEnd ∧ connection.toEnd = other.toEnd ∨
    connection.fromEnd = other.toEnd ∧ connection.toEnd = other.fromEnd

end FileConnection

namespace GraphFile

variable {U : Type} [UnitLike U]

/-- The socket at an end of a connection, as the kind of the node has it. -/
def socketAt? (registry : Registry U) (nodes : List FileNode) (endpoint : Endpoint) :
    Option Socket := do
  let node ← nodes[endpoint.module]?
  let unit ← registry.create? node.kind
  UnitLike.socket? unit endpoint.socket

section Connections

variable (registry : Registry U) (nodes : List FileNode)

/-- Whether a connection joins two sockets that a patch may join. -/
structure Joinable (connection : FileConnection) : Prop where
  from_lt : connection.fromNode.toNat < nodes.length
  to_lt : connection.toNode.toNat < nodes.length
  different : connection.fromEnd ≠ connection.toEnd
  sockets :
    ∃ first second,
      socketAt? registry nodes connection.fromEnd = some first ∧
        socketAt? registry nodes connection.toEnd = some second ∧
        first.signal = second.signal ∧
        first.direction ≠ second.direction

/-- Whether connections are joinable and no two of them join the same sockets. -/
structure Connectable (connections : List FileConnection) : Prop where
  joinable : ∀ connection ∈ connections, Joinable registry nodes connection
  distinct : connections.Pairwise fun first second => ¬ first.JoinsSame second

/-- The first cause that stands against a connection between nodes that are there. -/
inductive Cause (connection : FileConnection) : ConnectionError → Prop where
  | selfConnection :
      connection.fromEnd = connection.toEnd →
      Cause connection .selfConnection
  | unknownFrom :
      connection.fromEnd ≠ connection.toEnd →
      socketAt? registry nodes connection.fromEnd = none →
      Cause connection (.unknownSocket connection.fromEnd)
  | unknownTo {first : Socket} :
      connection.fromEnd ≠ connection.toEnd →
      socketAt? registry nodes connection.fromEnd = some first →
      socketAt? registry nodes connection.toEnd = none →
      Cause connection (.unknownSocket connection.toEnd)
  | incompatibleTypes {first second : Socket} :
      connection.fromEnd ≠ connection.toEnd →
      socketAt? registry nodes connection.fromEnd = some first →
      socketAt? registry nodes connection.toEnd = some second →
      first.signal ≠ second.signal →
      Cause connection (.incompatibleTypes first.signal second.signal)
  | directionMismatch {first second : Socket} :
      connection.fromEnd ≠ connection.toEnd →
      socketAt? registry nodes connection.fromEnd = some first →
      socketAt? registry nodes connection.toEnd = some second →
      first.signal = second.signal →
      first.direction = second.direction →
      Cause connection (.directionMismatch first.direction)

/-- What is wrong with a connection that comes after others. -/
inductive Fault
    (earlier : List FileConnection)
    (connection : FileConnection) :
    DefinitionError → Prop where
  | missingFrom :
      nodes.length ≤ connection.fromNode.toNat →
      Fault earlier connection (.missingNode connection.fromNode)
  | missingTo :
      connection.fromNode.toNat < nodes.length →
      nodes.length ≤ connection.toNode.toNat →
      Fault earlier connection (.missingNode connection.toNode)
  | duplicate {other : FileConnection} :
      connection.fromNode.toNat < nodes.length →
      connection.toNode.toNat < nodes.length →
      other ∈ earlier →
      other.JoinsSame connection →
      Fault earlier connection
        (.duplicateConnection
          (endLabel connection.fromNode connection.fromSocket)
          (endLabel connection.toNode connection.toSocket))
  | invalid {cause : ConnectionError} :
      connection.fromNode.toNat < nodes.length →
      connection.toNode.toNat < nodes.length →
      (∀ other ∈ earlier, ¬ other.JoinsSame connection) →
      Cause registry nodes connection cause →
      Fault earlier connection
        (.invalidConnection
          (endLabel connection.fromNode connection.fromSocket)
          (endLabel connection.toNode connection.toSocket)
          cause)

theorem joinable_or_cause
    {connection : FileConnection}
    (from_lt : connection.fromNode.toNat < nodes.length)
    (to_lt : connection.toNode.toNat < nodes.length) :
    Joinable registry nodes connection ∨ ∃ cause, Cause registry nodes connection cause := by
  by_cases different : connection.fromEnd = connection.toEnd
  · exact Or.inr ⟨_, .selfConnection different⟩
  cases firstFound : socketAt? registry nodes connection.fromEnd with
  | none =>
      exact Or.inr ⟨_, .unknownFrom different firstFound⟩
  | some first =>
      cases secondFound : socketAt? registry nodes connection.toEnd with
      | none =>
          exact Or.inr ⟨_, .unknownTo different firstFound secondFound⟩
      | some second =>
          by_cases sameSignal : first.signal = second.signal
          · by_cases sameDirection : first.direction = second.direction
            · exact Or.inr
                ⟨_, .directionMismatch different firstFound secondFound sameSignal sameDirection⟩
            · exact Or.inl
                ⟨from_lt, to_lt, different,
                  first, second, firstFound, secondFound, sameSignal, sameDirection⟩
          · exact Or.inr ⟨_, .incompatibleTypes different firstFound secondFound sameSignal⟩

theorem joinable_or_fault
    (earlier : List FileConnection)
    (connection : FileConnection) :
    (Joinable registry nodes connection ∧ ∀ other ∈ earlier, ¬ other.JoinsSame connection) ∨
      ∃ error, Fault registry nodes earlier connection error := by
  by_cases from_lt : connection.fromNode.toNat < nodes.length
  · by_cases to_lt : connection.toNode.toNat < nodes.length
    · by_cases unjoined : ∀ other ∈ earlier, ¬ other.JoinsSame connection
      · rcases joinable_or_cause registry nodes from_lt to_lt with joinable | ⟨cause, isCause⟩
        · exact Or.inl ⟨joinable, unjoined⟩
        · exact Or.inr ⟨_, .invalid from_lt to_lt unjoined isCause⟩
      · push Not at unjoined
        obtain ⟨other, isEarlier, joins⟩ := unjoined
        exact Or.inr ⟨_, .duplicate from_lt to_lt isEarlier joins⟩
    · exact Or.inr ⟨_, .missingTo from_lt (Nat.le_of_not_lt to_lt)⟩
  · exact Or.inr ⟨_, .missingFrom (Nat.le_of_not_lt from_lt)⟩

/-- Connections can all be made, or one of them is the first at fault. -/
theorem connectable_or_fault
    (connections : List FileConnection) :
    Connectable registry nodes connections ∨
      ∃ before connection after error,
        connections = before ++ connection :: after ∧
          Connectable registry nodes before ∧
          Fault registry nodes before connection error := by
  -- From the end: a fault of the last connection counts only when none before it has one.
  induction connections using List.reverseRecOn with
  | nil =>
      exact Or.inl ⟨by simp, List.Pairwise.nil⟩
  | append_singleton earlier last inductionHypothesis =>
      rcases inductionHypothesis with
        connectable | ⟨before, connection, after, error, rfl, connectable, fault⟩
      · rcases joinable_or_fault registry nodes earlier last with
          ⟨joinable, unjoined⟩ | ⟨error, fault⟩
        · left
          constructor
          · rw [List.forall_mem_append]
            exact ⟨connectable.joinable, List.forall_mem_singleton.mpr joinable⟩
          · rw [List.pairwise_append]
            refine ⟨connectable.distinct, List.pairwise_singleton _ _, ?_⟩
            intro other isEarlier connection isLast
            obtain rfl := List.mem_singleton.mp isLast
            exact unjoined other isEarlier
        · exact Or.inr ⟨earlier, last, [], error, rfl, connectable, fault⟩
      · exact Or.inr
          ⟨before, connection, after ++ [last], error, by simp, connectable, fault⟩

end Connections

section Files

variable (registry : Registry U) (expected : GraphKind) (file : GraphFile)

/-- Whether a file describes a graph of a kind. -/
structure Legal : Prop where
  kind : file.kind = expected
  registered : ∀ node ∈ file.nodes, node.kind ∈ registry.kinds
  connectable : Connectable registry file.nodes file.connections

/--
The first fault of a file: its kind, else the first node of no registered kind,
else the first connection at fault.
-/
inductive Refused : DefinitionError → Prop where
  | kind :
      file.kind ≠ expected →
      Refused (.kindMismatch expected file.kind)
  | node {before after : List FileNode} {node : FileNode} :
      file.kind = expected →
      file.nodes = before ++ node :: after →
      (∀ earlier ∈ before, earlier.kind ∈ registry.kinds) →
      node.kind ∉ registry.kinds →
      Refused (.unknownKind node.kind)
  | connection
      {before after : List FileConnection}
      {connection : FileConnection}
      {error : DefinitionError} :
      file.kind = expected →
      (∀ node ∈ file.nodes, node.kind ∈ registry.kinds) →
      file.connections = before ++ connection :: after →
      Connectable registry file.nodes before →
      Fault registry file.nodes before connection error →
      Refused error

theorem registered_or_unknown
    (nodes : List FileNode) :
    (∀ node ∈ nodes, node.kind ∈ registry.kinds) ∨
      ∃ before node after,
        nodes = before ++ node :: after ∧
          (∀ earlier ∈ before, earlier.kind ∈ registry.kinds) ∧
          node.kind ∉ registry.kinds := by
  cases found : nodes.find? fun node => node.kind ∉ registry.kinds with
  | none =>
      left
      intro node member
      simpa using List.find?_eq_none.mp found node member
  | some node =>
      obtain ⟨isUnknown, before, after, whole, areKnown⟩ :=
        List.find?_eq_some_iff_append.mp found
      refine Or.inr ⟨before, node, after, whole, ?_, by simpa using isUnknown⟩
      intro earlier member
      simpa using areKnown earlier member

theorem legal_or_refused :
    Legal registry expected file ∨ ∃ error, Refused registry expected file error := by
  by_cases kind : file.kind = expected
  · rcases registered_or_unknown registry file.nodes with
      registered | ⟨before, node, after, whole, areKnown, isUnknown⟩
    · rcases connectable_or_fault registry file.nodes file.connections with
        connectable | ⟨before, connection, after, error, whole, connectable, fault⟩
      · exact Or.inl ⟨kind, registered, connectable⟩
      · exact Or.inr ⟨error, .connection kind registered whole connectable fault⟩
    · exact Or.inr ⟨_, .node kind whole areKnown isUnknown⟩
  · exact Or.inr ⟨_, .kind kind⟩

end Files

end GraphFile

end SynthGraph
