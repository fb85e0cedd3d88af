import SynthGraph.Proofs.Graph.Producers

namespace SynthGraph

/-!
# What arrives at the sockets of a module

The connections of a module are filled in one socket at a time.  Since names
tell sockets apart, nothing is ever replaced: every input socket at which
something arrives is listed once, in the order of the sockets, and the other
sockets are absent (`Graph.connections_eq_ofSockets`).
-/

namespace Connections

/-- The sockets at which something arrives, with what arrives there. -/
def ofSockets (sockets : List Socket) (arriving : String → List Emission) : Connections :=
  ⟨sockets.filterMap fun socket =>
    if (arriving socket.name).isEmpty then
      none
    else
      some (socket.name, arriving socket.name)⟩

theorem insertInto_of_notMem
    {socket : String}
    {inputs : List (String × List Emission)}
    (absent : socket ∉ inputs.map Prod.fst)
    (emissions : List Emission) :
    insertInto socket emissions inputs = inputs ++ [(socket, emissions)] := by
  induction inputs with
  | nil =>
      rfl
  | cons input rest inductionHypothesis =>
      obtain ⟨other, present⟩ := input
      rw [List.map_cons, List.mem_cons, not_or] at absent
      rw [insertInto, if_neg (Ne.symm absent.1), inductionHypothesis absent.2]
      rfl

/-- Filling in sockets with different names appends one entry for each that is patched. -/
theorem foldl_insert
    (arriving : String → List Emission)
    {sockets : List Socket}
    (namesNodup : (sockets.map Socket.name).Nodup)
    (connections : Connections)
    (absent : ∀ socket ∈ sockets, socket.name ∉ connections.inputs.map Prod.fst) :
    sockets.foldl
        (fun connections socket =>
          match arriving socket.name with
          | [] => connections
          | arrived => connections.insert socket.name arrived)
        connections =
      ⟨connections.inputs ++ (ofSockets sockets arriving).inputs⟩ := by
  induction sockets generalizing connections with
  | nil =>
      simp [ofSockets]
  | cons socket rest inductionHypothesis =>
      rw [List.map_cons, List.nodup_cons] at namesNodup
      have restAbsent := fun other member => absent other (List.mem_cons_of_mem socket member)
      rw [List.foldl_cons]
      cases arrived : arriving socket.name with
      | nil =>
          rw [inductionHypothesis namesNodup.2 connections restAbsent]
          simp [ofSockets, arrived]
      | cons emission emissions =>
          have appended :=
            insertInto_of_notMem (absent socket List.mem_cons_self) (emission :: emissions)
          rw [inductionHypothesis namesNodup.2]
          · simp [ofSockets, insert, arrived, appended]
          · intro other member
            simp only [insert, appended, List.map_append, List.map_cons, List.map_nil, List.mem_append,
              List.mem_singleton, not_or]
            refine ⟨restAbsent other member, ?_⟩
            intro sameName
            exact namesNodup.1 (sameName ▸ List.mem_map_of_mem member)

theorem ofSockets_congr
    {sockets : List Socket}
    {arriving other : String → List Emission}
    (same : ∀ socket ∈ sockets, arriving socket.name = other socket.name) :
    ofSockets sockets arriving = ofSockets sockets other := by
  unfold ofSockets
  congr 1
  apply List.filterMap_congr
  intro socket member
  rw [same socket member]

/-- At a socket that is there everything arrives that is meant for it. -/
theorem get_ofSockets
    (arriving : String → List Emission)
    {sockets : List Socket}
    {socket : Socket}
    (member : socket ∈ sockets) :
    (ofSockets sockets arriving).get socket.name = arriving socket.name := by
  unfold get
  split
  · rename_i input found
    have isNamed : input.1 = socket.name := by
      simpa using List.find?_some found
    obtain ⟨other, _, isEntry⟩ := List.mem_filterMap.mp (List.mem_of_find?_eq_some found)
    split at isEntry
    · cases isEntry
    · cases isEntry
      exact congrArg arriving isNamed
  · rename_i missing
    by_contra patched
    have isEntry :
        (socket.name, arriving socket.name) ∈ (ofSockets sockets arriving).inputs := by
      refine List.mem_filterMap.mpr ⟨socket, member, if_neg ?_⟩
      intro isEmpty
      exact patched (List.isEmpty_iff.mp isEmpty).symm
    simpa using List.find?_eq_none.mp missing _ isEntry

end Connections

namespace Graph

variable {U : Type} [UnitLike U]

/-- The names of the input sockets of a unit tell them apart. -/
theorem inputNames_nodup
    [LawfulUnit U]
    (unit : U) :
    ((UnitLike.inputs unit).map Socket.name).Nodup :=
  (LawfulUnit.names_nodup unit).sublist (List.filter_sublist.map _)

theorem hasSocket_of_mem_inputs
    [LawfulUnit U]
    {graph : Graph U}
    {id : ModuleId}
    {unit : U}
    (found : graph.unit? id = some unit)
    {socket : Socket}
    (member : socket ∈ UnitLike.inputs unit) :
    graph.HasSocket ⟨id, socket.name⟩ .input socket.signal := by
  obtain ⟨isSocket, isInput⟩ := List.mem_filter.mp member
  have direction : socket.direction = .input := by
    simpa [Socket.isInput] using isInput
  exact ⟨unit, found, by rw [UnitLike.socket?_of_mem isSocket, ← direction]⟩

/-- What is passed to a unit lists its patched input sockets in their order. -/
theorem connections_eq_ofSockets
    [LawfulUnit U]
    (graph : Graph U)
    (schedule : Schedule)
    (emissions : Emissions)
    (id : ModuleId)
    (unit : U) :
    graph.connections schedule emissions id unit =
      .ofSockets (UnitLike.inputs unit) fun name =>
        graph.arrivals schedule emissions ⟨id, name⟩ :=
  Connections.foldl_insert (fun name => graph.arrivals schedule emissions ⟨id, name⟩)
    (inputNames_nodup unit) .empty (by simp [Connections.empty])

end Graph

end SynthGraph
