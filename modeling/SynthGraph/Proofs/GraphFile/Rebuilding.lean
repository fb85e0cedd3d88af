import SynthGraph.Proofs.Graph.Numbering
import SynthGraph.Proofs.GraphFile.Legality
import SynthGraph.Proofs.Unit.Catalog

namespace SynthGraph

/-!
# Rebuilding graph files

Nodes are added and connections made one by one, and at every point the graph is
the one that the nodes and connections so far describe.  Hence a file is rebuilt
exactly when it is legal, no connection is lost on the way, and a refusal names
the first fault of the file (`GraphFile.rebuilds_legal_files`).
-/

namespace GraphFile

open CatalogUnit

variable {U : Type} [UnitLike U]

/-- Whether a patch is the one of a connection: between its ends, from the output to the input. -/
structure Makes
    (registry : Registry U)
    (nodes : List FileNode)
    (connection : FileConnection)
    (patch : Patch) :
    Prop where
  source :
    socketAt? registry nodes patch.source = some ⟨patch.source.socket, .output, patch.signal⟩
  target :
    socketAt? registry nodes patch.target = some ⟨patch.target.socket, .input, patch.signal⟩
  ends :
    patch.source = connection.fromEnd ∧ patch.target = connection.toEnd ∨
      patch.source = connection.toEnd ∧ patch.target = connection.fromEnd

/-- Whether a graph is the one that nodes and connections describe. -/
structure Describes
    (registry : Registry U)
    (withSample : Sample → U → U)
    (nodes : List FileNode)
    (connections : List FileConnection)
    (graph : Graph U) :
    Prop where
  modules :
    List.Forall₂
      (fun node module =>
        nodeUnit registry withSample node = .ok module.unit ∧ module.position = node.position)
      nodes graph.modules
  ids : graph.modules.map Module.id = List.range nodes.length
  nextId : graph.nextId = nodes.length
  patches : List.Forall₂ (Makes registry nodes) connections graph.patches

/-- What comes of a file, as a result or as a refusal. -/
structure Settles
    {α : Type}
    (registry : Registry U)
    (withSample : Sample → U → U)
    (expected : GraphKind)
    (file : GraphFile)
    (result : Graph U → α)
    (outcome : Except DefinitionError α) :
    Prop where
  accepted_iff : (∃ value, outcome = .ok value) ↔ Legal registry expected file
  described :
    ∀ value, outcome = .ok value →
      ∃ graph,
        value = result graph ∧
          Describes registry withSample file.nodes file.connections graph ∧
          graph.patches.length = file.connections.length
  refused_iff : ∀ error, outcome = .error error ↔ Refused registry expected file error

/-- What is done with a connection between nodes that are there. -/
theorem addConnection_eq
    {count : Nat}
    {connection : FileConnection}
    (from_lt : connection.fromNode.toNat < count)
    (to_lt : connection.toNode.toNat < count)
    (graph : Graph U) :
    addConnection count graph connection =
      if graph.hasPatch connection.fromEnd connection.toEnd then
        .error
          (.duplicateConnection
            (endLabel connection.fromNode connection.fromSocket)
            (endLabel connection.toNode connection.toSocket))
      else
        match graph.connect connection.fromEnd connection.toEnd with
        | .ok (_, patched) => .ok patched
        | .error cause =>
            .error
              (.invalidConnection
                (endLabel connection.fromNode connection.fromSocket)
                (endLabel connection.toNode connection.toSocket)
                cause) := by
  simp only [addConnection, nodeModule, if_pos from_lt, if_pos to_lt, bind, Except.bind]
  rfl

theorem addConnections_append
    (count : Nat)
    (graph : Graph U)
    (first second : List FileConnection) :
    addConnections count graph (first ++ second) =
      addConnections count graph first >>=
        fun patched => addConnections count patched second := by
  induction first generalizing graph with
  | nil =>
      rfl
  | cons connection rest inductionHypothesis =>
      simp only [List.cons_append, addConnections, bind_assoc, inductionHypothesis]

section Nodes

theorem create?_isSome_iff
    (registry : Registry U)
    (kind : String) :
    (registry.create? kind).isSome ↔ kind ∈ registry.kinds := by
  simp [Registry.create?, Registry.kinds, List.find?_isSome]

variable [CatalogUnit U]

theorem exists_nodeUnit
    {node : FileNode}
    (registered : node.kind ∈ (registry : Registry U).kinds) :
    ∃ unit : U, nodeUnit registry withSample node = .ok unit := by
  obtain ⟨new, created⟩ :=
    Option.isSome_iff_exists.mp ((create?_isSome_iff _ node.kind).mpr registered)
  simp [nodeUnit, created]

theorem nodeUnit_of_unknown
    {node : FileNode}
    (unknown : node.kind ∉ (registry : Registry U).kinds) :
    nodeUnit (registry : Registry U) withSample node = .error (.unknownKind node.kind) := by
  have missing : (registry : Registry U).create? node.kind = none := by
    rw [← Option.not_isSome_iff_eq_none, create?_isSome_iff]
    exact unknown
  simp only [nodeUnit, missing]

theorem sockets_setDial
    (unit : U)
    (id : String)
    (value : Double) :
    UnitLike.sockets (UnitLike.setDial unit id value) = UnitLike.sockets unit := by
  unfold UnitLike.setDial
  cases isTurned : UnitLike.setDial? unit id value with
  | none =>
      rfl
  | some turned =>
      exact LawfulUnit.sockets_setDial? isTurned

theorem sockets_turnDials
    (unit : U)
    (dials : DialValues) :
    UnitLike.sockets (turnDials unit dials) = UnitLike.sockets unit := by
  unfold turnDials
  induction dials.entries generalizing unit with
  | nil =>
      rfl
  | cons entry rest inductionHypothesis =>
      rw [List.foldl_cons, inductionHypothesis, sockets_setDial]

/-- The dials and the sample of a node have no say in its sockets. -/
theorem sockets_nodeUnit
    {node : FileNode}
    {unit : U}
    (isUnit : nodeUnit registry withSample node = .ok unit) :
    ∃ new : U,
      registry.create? node.kind = some new ∧
        UnitLike.sockets unit = UnitLike.sockets new := by
  unfold nodeUnit at isUnit
  split at isUnit
  · cases isUnit
  · rename_i new created
    refine ⟨new, created, ?_⟩
    cases isUnit
    split
    · rw [sockets_withSample, sockets_turnDials]
    · rw [sockets_turnDials]

end Nodes

variable [CatalogUnit U]

namespace Describes

variable
  {nodes : List FileNode}
  {connections : List FileConnection}
  {graph : Graph U}

theorem empty :
    Describes registry withSample [] [] (Graph.empty : Graph U) :=
  ⟨.nil, rfl, rfl, .nil⟩

theorem addNode
    (described : Describes registry withSample nodes [] graph)
    {node : FileNode}
    {unit : U}
    (isUnit : nodeUnit registry withSample node = .ok unit) :
    Describes registry withSample (nodes ++ [node]) [] (graph.add unit node.position) where
  modules := List.rel_append described.modules (.cons ⟨isUnit, rfl⟩ .nil)
  ids := by
    simp [Graph.add, described.ids, described.nextId, List.range_succ]
  nextId := by
    simp [Graph.add, described.nextId]
  patches := by
    have none := List.forall₂_nil_left_iff.mp described.patches
    simp [Graph.add, none]

/-- Nodes of registered kinds are all added. -/
theorem addNodes
    (described : Describes registry withSample nodes [] graph)
    {rest : List FileNode}
    (registered : ∀ node ∈ rest, node.kind ∈ (registry : Registry U).kinds) :
    ∃ filled,
      addNodes registry withSample graph rest = .ok filled ∧
        Describes registry withSample (nodes ++ rest) [] filled := by
  induction rest generalizing nodes graph with
  | nil =>
      exact ⟨graph, rfl, by simpa using described⟩
  | cons node rest inductionHypothesis =>
      rw [List.forall_mem_cons] at registered
      obtain ⟨unit, isUnit⟩ := exists_nodeUnit registered.1
      obtain ⟨filled, isFilled, later⟩ :=
        inductionHypothesis (described.addNode isUnit) registered.2
      refine ⟨filled, ?_, by simpa using later⟩
      simp only [GraphFile.addNodes, isUnit, bind, Except.bind, isFilled]

section Sockets

variable (described : Describes registry withSample nodes connections graph)

include described

theorem numbered : graph.Numbered := by
  constructor
  · rw [← List.pairwise_map (f := Module.id) (R := (· < ·)), described.ids]
    exact List.pairwise_lt_range
  · intro module member
    have isId := List.mem_map_of_mem (f := Module.id) member
    rw [described.ids, List.mem_range] at isId
    rw [described.nextId]
    exact isId

/-- The module of a node is found under the position of the node. -/
theorem unit?_of_getElem?
    {id : ModuleId}
    {node : FileNode}
    (isNode : nodes[id]? = some node) :
    ∃ unit,
      graph.unit? id = some unit ∧
        nodeUnit registry withSample node = .ok unit := by
  obtain ⟨below, rfl⟩ := List.getElem?_eq_some_iff.mp isNode
  have isThere : id < graph.modules.length := described.modules.length_eq ▸ below
  have isUnit := (described.modules.get below isThere).1
  refine ⟨_, ?_, isUnit⟩
  -- No module is removed while a file is rebuilt, so numbers are positions.
  have sameId : graph.modules[id].id = id := by
    have ids := congrArg (·[id]?) described.ids
    simpa [isThere, below] using ids
  have found := described.numbered.module?_of_mem (List.getElem_mem isThere)
  rw [sameId] at found
  simp [Graph.unit?, found]

/-- The sockets of a file are those of its graph. -/
theorem socketAt?_eq
    {endpoint : Endpoint}
    {unit : U}
    (found : graph.unit? endpoint.module = some unit)
    (below : endpoint.module < nodes.length) :
    socketAt? (registry : Registry U) nodes endpoint =
      UnitLike.socket? unit endpoint.socket := by
  have isNode := List.getElem?_eq_getElem below
  obtain ⟨other, otherFound, isUnit⟩ := described.unit?_of_getElem? isNode
  obtain rfl := Option.some.inj (found.symm.trans otherFound)
  obtain ⟨new, created, same⟩ := sockets_nodeUnit isUnit
  simp only [socketAt?, isNode, created, Option.bind_eq_bind, Option.bind_some]
  exact (UnitLike.socket?_congr same endpoint.socket).symm

/-- Both ends of a connection between nodes that are there have units. -/
theorem exists_units
    {connection : FileConnection}
    (from_lt : connection.fromNode.toNat < nodes.length)
    (to_lt : connection.toNode.toNat < nodes.length) :
    ∃ firstUnit secondUnit,
      graph.unit? connection.fromEnd.module = some firstUnit ∧
        graph.unit? connection.toEnd.module = some secondUnit ∧
        socketAt? (registry : Registry U) nodes connection.fromEnd =
          UnitLike.socket? firstUnit connection.fromEnd.socket ∧
        socketAt? (registry : Registry U) nodes connection.toEnd =
          UnitLike.socket? secondUnit connection.toEnd.socket := by
  obtain ⟨firstUnit, firstFound, _⟩ :=
    described.unit?_of_getElem? (List.getElem?_eq_getElem from_lt)
  obtain ⟨secondUnit, secondFound, _⟩ :=
    described.unit?_of_getElem? (List.getElem?_eq_getElem to_lt)
  exact ⟨firstUnit, secondUnit, firstFound, secondFound,
    described.socketAt?_eq firstFound from_lt, described.socketAt?_eq secondFound to_lt⟩

/-- What the rules have against a connection is what the graph has against it. -/
theorem candidate_of_cause
    {connection : FileConnection}
    {cause : ConnectionError}
    (from_lt : connection.fromNode.toNat < nodes.length)
    (to_lt : connection.toNode.toNat < nodes.length)
    (isCause : Cause (registry : Registry U) nodes connection cause) :
    graph.candidate connection.fromEnd connection.toEnd = .error cause := by
  obtain ⟨firstUnit, secondUnit, firstFound, secondFound, firstSocket, secondSocket⟩ :=
    described.exists_units from_lt to_lt
  cases isCause with
  | selfConnection same =>
      rw [← same]
      exact Graph.candidate_self firstFound
  | unknownFrom different unknown =>
      rw [firstSocket] at unknown
      exact Graph.candidate_of_unknown_first firstFound secondFound different unknown
  | unknownTo different known unknown =>
      rw [firstSocket] at known
      rw [secondSocket] at unknown
      exact Graph.candidate_of_unknown_second firstFound secondFound different known unknown
  | incompatibleTypes different firstNamed secondNamed differentSignal =>
      rw [firstSocket] at firstNamed
      rw [secondSocket] at secondNamed
      rw [Graph.candidate_of_sockets firstFound secondFound different firstNamed secondNamed,
        if_pos differentSignal]
  | directionMismatch different firstNamed secondNamed sameSignal sameDirection =>
      rw [firstSocket] at firstNamed
      rw [secondSocket] at secondNamed
      rw [Graph.candidate_of_sockets firstFound secondFound different firstNamed secondNamed,
        if_neg (not_not.mpr sameSignal), if_pos sameDirection]

theorem socketAt?_of_hasSocket
    {endpoint : Endpoint}
    {direction : Direction}
    {signal : Signal}
    (present : graph.HasSocket endpoint direction signal)
    (below : endpoint.module < nodes.length) :
    socketAt? (registry : Registry U) nodes endpoint =
      some ⟨endpoint.socket, direction, signal⟩ := by
  obtain ⟨unit, found, isSocket⟩ := present
  exact (described.socketAt?_eq found below).trans isSocket

/-- A joinable connection has a patch. -/
theorem candidate_of_joinable
    {connection : FileConnection}
    (joinable : Joinable (registry : Registry U) nodes connection) :
    ∃ patch,
      graph.candidate connection.fromEnd connection.toEnd = .ok patch ∧
        Makes (registry : Registry U) nodes connection patch := by
  obtain ⟨from_lt, to_lt, different, first, second, firstNamed, secondNamed, sameSignal,
    otherDirection⟩ := joinable
  obtain ⟨firstUnit, secondUnit, firstFound, secondFound, firstSocket, secondSocket⟩ :=
    described.exists_units from_lt to_lt
  have isCandidate :=
    Graph.candidate_of_sockets firstFound secondFound different
      (firstSocket.symm.trans firstNamed) (secondSocket.symm.trans secondNamed)
  rw [if_neg (not_not.mpr sameSignal), if_neg otherDirection] at isCandidate
  obtain ⟨fits, ends⟩ := Graph.candidate_eq_ok_iff.mp isCandidate
  have areNodes :
      (Graph.orient connection.fromEnd connection.toEnd first).source.module < nodes.length ∧
        (Graph.orient connection.fromEnd connection.toEnd first).target.module < nodes.length := by
    rcases ends with ⟨source, target⟩ | ⟨source, target⟩ <;> rw [source, target]
    · exact ⟨from_lt, to_lt⟩
    · exact ⟨to_lt, from_lt⟩
  exact ⟨_, isCandidate,
    described.socketAt?_of_hasSocket fits.1 areNodes.1,
    described.socketAt?_of_hasSocket fits.2 areNodes.2, ends⟩

end Sockets

/-- The patch of an earlier connection joins the ends of another if the connections do. -/
theorem joins_of_makes
    {other connection : FileConnection}
    {patch : Patch}
    (makes : Makes (registry : Registry U) nodes other patch) :
    patch.joins connection.fromEnd connection.toEnd ↔ other.JoinsSame connection := by
  simp only [Patch.joins, FileConnection.JoinsSame, Bool.or_eq_true, Bool.and_eq_true,
    decide_eq_true_eq]
  rcases makes.ends with ⟨source, target⟩ | ⟨source, target⟩
  · rw [source, target]
  · rw [source, target, or_comm, and_comm, and_comm (a := other.toEnd = connection.fromEnd)]

/-- Patches join two ends exactly if one of their connections does. -/
theorem any_joins_iff
    {patches : List Patch}
    (made : List.Forall₂ (Makes (registry : Registry U) nodes) connections patches)
    (connection : FileConnection) :
    patches.any (·.joins connection.fromEnd connection.toEnd) ↔
      ∃ other ∈ connections, other.JoinsSame connection := by
  induction made with
  | nil =>
      simp
  | cons makes _ inductionHypothesis =>
      rw [List.any_cons, Bool.or_eq_true, joins_of_makes makes, inductionHypothesis,
        List.exists_mem_cons_iff]

theorem not_hasPatch
    (described : Describes registry withSample nodes connections graph)
    {connection : FileConnection}
    (unjoined : ∀ other ∈ connections, ¬ other.JoinsSame connection) :
    ¬ graph.hasPatch connection.fromEnd connection.toEnd := by
  intro joined
  obtain ⟨other, isEarlier, joins⟩ := (any_joins_iff described.patches connection).mp joined
  exact unjoined other isEarlier joins

/-- One more connection is made if it is joinable and its ends are not joined. -/
theorem addConnection
    (described : Describes registry withSample nodes connections graph)
    {connection : FileConnection}
    (joinable : Joinable (registry : Registry U) nodes connection)
    (unjoined : ∀ other ∈ connections, ¬ other.JoinsSame connection) :
    ∃ patched,
      addConnection nodes.length graph connection = .ok patched ∧
        Describes registry withSample nodes (connections ++ [connection]) patched := by
  obtain ⟨patch, isCandidate, makes⟩ := described.candidate_of_joinable joinable
  have absent := described.not_hasPatch unjoined
  refine ⟨{ graph with patches := graph.patches ++ [patch] }, ?_, ?_⟩
  · rw [addConnection_eq joinable.from_lt joinable.to_lt, if_neg absent,
      Graph.connect_of_candidate isCandidate absent]
  · exact ⟨described.modules, described.ids, described.nextId,
      List.rel_append described.patches (.cons makes .nil)⟩

/-- A connection at fault is refused for its fault. -/
theorem addConnection_of_fault
    (described : Describes registry withSample nodes connections graph)
    {connection : FileConnection}
    {error : DefinitionError}
    (fault : Fault (registry : Registry U) nodes connections connection error) :
    GraphFile.addConnection nodes.length graph connection = .error error := by
  cases fault with
  | missingFrom missing =>
      simp [GraphFile.addConnection, nodeModule, Nat.not_lt.mpr missing, bind, Except.bind]
  | missingTo from_lt missing =>
      simp [GraphFile.addConnection, nodeModule, from_lt, Nat.not_lt.mpr missing, bind, Except.bind]
  | duplicate from_lt to_lt isEarlier joins =>
      have joined : graph.hasPatch connection.fromEnd connection.toEnd :=
        (any_joins_iff described.patches connection).mpr ⟨_, isEarlier, joins⟩
      rw [addConnection_eq from_lt to_lt, if_pos joined]
  | invalid from_lt to_lt unjoined isCause =>
      rw [addConnection_eq from_lt to_lt, if_neg (described.not_hasPatch unjoined),
        Graph.connect, described.candidate_of_cause from_lt to_lt isCause]
      rfl

/-- Connections are all made if they can be made together with those before them. -/
theorem addConnections
    (described : Describes registry withSample nodes connections graph)
    {rest : List FileConnection}
    (connectable : Connectable (registry : Registry U) nodes (connections ++ rest)) :
    ∃ patched,
      addConnections nodes.length graph rest = .ok patched ∧
        Describes registry withSample nodes (connections ++ rest) patched := by
  induction rest generalizing connections graph with
  | nil =>
      exact ⟨graph, rfl, by simpa using described⟩
  | cons connection rest inductionHypothesis =>
      have joinable : Joinable registry nodes connection :=
        connectable.joinable connection (by simp)
      have unjoined : ∀ other ∈ connections, ¬ other.JoinsSame connection :=
        fun other isEarlier =>
          (List.pairwise_append.mp connectable.distinct).2.2 other isEarlier connection
            List.mem_cons_self
      obtain ⟨patched, isPatched, stillDescribed⟩ := described.addConnection joinable unjoined
      -- The connection made moves over to those that the graph describes.
      rw [List.append_cons] at connectable ⊢
      obtain ⟨last, isLast, lastDescribed⟩ := inductionHypothesis stillDescribed connectable
      refine ⟨last, ?_, lastDescribed⟩
      simp only [GraphFile.addConnections, isPatched, bind, Except.bind, isLast]

end Describes

section Outcomes

theorem addNodes_append
    (graph : Graph U)
    (first second : List FileNode) :
    addNodes registry withSample graph (first ++ second) =
      addNodes registry withSample graph first >>=
        fun filled => addNodes registry withSample filled second := by
  induction first generalizing graph with
  | nil =>
      rfl
  | cons node rest inductionHypothesis =>
      simp only [List.cons_append, addNodes, bind_assoc, inductionHypothesis]

variable {nodes : List FileNode} {connections : List FileConnection}

theorem exists_filled
    (registered : ∀ node ∈ nodes, node.kind ∈ (registry : Registry U).kinds) :
    ∃ filled : Graph U,
      addNodes registry withSample .empty nodes = .ok filled ∧
        Describes registry withSample nodes [] filled :=
  Describes.empty.addNodes registered

theorem rebuild_of_connectable
    (registered : ∀ node ∈ nodes, node.kind ∈ (registry : Registry U).kinds)
    (connectable : Connectable (registry : Registry U) nodes connections) :
    ∃ graph : Graph U,
      rebuild registry withSample nodes connections = .ok graph ∧
        Describes registry withSample nodes connections graph := by
  obtain ⟨filled, isFilled, described⟩ := exists_filled registered
  obtain ⟨patched, isPatched, patchedDescribed⟩ := described.addConnections connectable
  refine ⟨patched, ?_, patchedDescribed⟩
  simp only [rebuild, isFilled, bind, Except.bind, isPatched]

theorem rebuild_of_unknown
    {before after : List FileNode}
    {node : FileNode}
    (registered : ∀ earlier ∈ before, earlier.kind ∈ (registry : Registry U).kinds)
    (unknown : node.kind ∉ (registry : Registry U).kinds) :
    rebuild (registry : Registry U) withSample (before ++ node :: after) connections =
      .error (.unknownKind node.kind) := by
  obtain ⟨filled, isFilled, _⟩ := exists_filled registered
  simp only [rebuild, addNodes_append, isFilled, addNodes, nodeUnit_of_unknown unknown, bind,
    Except.bind]

theorem rebuild_of_fault
    {before after : List FileConnection}
    {connection : FileConnection}
    {error : DefinitionError}
    (registered : ∀ node ∈ nodes, node.kind ∈ (registry : Registry U).kinds)
    (connectable : Connectable (registry : Registry U) nodes before)
    (fault : Fault (registry : Registry U) nodes before connection error) :
    rebuild (registry : Registry U) withSample nodes (before ++ connection :: after) =
      .error error := by
  obtain ⟨filled, isFilled, described⟩ := exists_filled registered
  obtain ⟨patched, isPatched, patchedDescribed⟩ := described.addConnections connectable
  have refused := patchedDescribed.addConnection_of_fault fault
  simp only [rebuild, isFilled, addConnections_append, isPatched, addConnections, refused, bind,
    Except.bind]

/-- The result of a file of a kind. -/
def outcome
    {α : Type}
    (expected : GraphKind)
    (result : Graph U → α)
    (file : GraphFile) :
    Except DefinitionError α := do
  file.expectKind expected
  let graph ← rebuild (registry : Registry U) withSample file.nodes file.connections
  return result graph

section Settling

variable
  {α : Type}
  {expected : GraphKind}
  {file : GraphFile}

theorem outcome_of_legal
    (legal : Legal (registry : Registry U) expected file)
    (result : Graph U → α) :
    ∃ graph,
      outcome expected result file = .ok (result graph) ∧
        Describes registry withSample file.nodes file.connections graph := by
  obtain ⟨graph, isRebuilt, described⟩ :=
    rebuild_of_connectable legal.registered legal.connectable
  refine ⟨graph, ?_, described⟩
  simp only [outcome, expectKind, if_pos legal.kind, isRebuilt, bind, Except.bind]
  rfl

theorem outcome_of_refused
    {error : DefinitionError}
    (refused : Refused (registry : Registry U) expected file error)
    (result : Graph U → α) :
    outcome expected result file = .error error := by
  cases refused with
  | kind other =>
      simp only [outcome, expectKind, if_neg other, bind, Except.bind]
  | node kind whole registered unknown =>
      simp only [outcome, expectKind, if_pos kind, whole, rebuild_of_unknown registered unknown,
        bind, Except.bind]
  | connection kind registered whole connectable fault =>
      simp only [outcome, expectKind, if_pos kind, whole,
        rebuild_of_fault registered connectable fault, bind, Except.bind]

/-- A file is legal or has a first fault, so what comes of it tells which. -/
theorem settles_outcome
    (expected : GraphKind)
    (file : GraphFile)
    (result : Graph U → α) :
    Settles registry withSample expected file result (outcome expected result file) := by
  rcases legal_or_refused (registry : Registry U) expected file with legal | ⟨error, refused⟩
  · obtain ⟨graph, isOutcome, described⟩ := outcome_of_legal legal result
    refine ⟨iff_of_true ⟨_, isOutcome⟩ legal, ?_, ?_⟩
    · intro value isValue
      obtain rfl := Except.ok.inj (isValue.symm.trans isOutcome)
      exact ⟨graph, rfl, described, described.patches.length_eq.symm⟩
    · intro error
      refine iff_of_false ?_ ?_
      · rw [isOutcome]
        exact nofun
      · intro refused
        cases isOutcome.symm.trans (outcome_of_refused refused result)
  · have isOutcome := outcome_of_refused refused result
    refine ⟨iff_of_false ?_ ?_, ?_, ?_⟩
    · rintro ⟨value, isValue⟩
      cases isOutcome.symm.trans isValue
    · intro legal
      obtain ⟨graph, isValue, _⟩ := outcome_of_legal legal result
      cases isOutcome.symm.trans isValue
    · intro value isValue
      cases isOutcome.symm.trans isValue
    · intro other
      constructor
      · intro isOther
        obtain rfl := Except.error.inj (isOutcome.symm.trans isOther)
        exact refused
      · intro otherRefused
        exact outcome_of_refused otherRefused result

end Settling

end Outcomes

/--
A file is rebuilt exactly when it is legal, into the graph it describes; else its first
fault is reported.
-/
theorem rebuilds_legal_files
    (file : GraphFile) :
    Settles InstrumentUnit.registry InstrumentUnit.withSample .instrument file
        (fun graph => (⟨file.name, file.bankIndex, graph⟩ : Instrument))
        file.toInstrument ∧
      Settles SequenceUnit.registry (fun _ unit => unit) .sequence file
        (fun graph => (⟨file.channel.getD Sequence.defaultChannel, graph⟩ : Sequence))
        file.toSequence :=
  ⟨settles_outcome .instrument file _, settles_outcome .sequence file _⟩

/-- A connection that comes back with its ends exchanged is refused and not undone. -/
example :
    let node (kind : String) : FileNode := ⟨kind, .origin, .empty, none⟩
    let file : GraphFile :=
      { name := none
        version := latestVersion
        kind := .instrument
        bankIndex := none
        channel := none
        nodes := [node "sine", node "output"]
        connections := [⟨0, "OUT", 1, "IN"⟩, ⟨1, "IN", 0, "OUT"⟩] }
    file.toInstrument = .error (.duplicateConnection "1.IN" "0.OUT") := by
  rfl

end GraphFile

end SynthGraph
