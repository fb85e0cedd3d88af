import SynthGraph.Proofs.Graph.Run

namespace SynthGraph

/-!
# Connecting two sockets

Two sockets can be connected exactly when the patch between them fits: it leads
from an output to an input of modules that are there, and both ends carry its
signal (`candidate_eq_ok_iff`).  Connecting them toggles that patch.
-/

section Results

variable {ε α β : Type} {result : Except ε α} {value : β}

theorem map_eq_ok_iff
    {convert : α → β} :
    convert <$> result = .ok value ↔ ∃ found, result = .ok found ∧ convert found = value := by
  cases result <;> simp [Functor.map, Except.map]

theorem bind_eq_ok_iff
    {next : α → Except ε β} :
    result >>= next = .ok value ↔ ∃ found, result = .ok found ∧ next found = .ok value := by
  cases result <;> simp [bind, Except.bind]

end Results

namespace Graph

variable {U : Type}

theorem toggle_modules
    (graph : Graph U)
    (patch : Patch) :
    (graph.toggle patch).2.modules = graph.modules := by
  unfold toggle
  split <;> rfl

theorem toggle_nextId
    (graph : Graph U)
    (patch : Patch) :
    (graph.toggle patch).2.nextId = graph.nextId := by
  unfold toggle
  split <;> rfl

theorem mem_toggle
    {graph : Graph U}
    {patch other : Patch}
    (member : other ∈ (graph.toggle patch).2.patches) :
    other ∈ graph.patches ∨ other = patch := by
  unfold toggle at member
  split at member
  · exact Or.inl (List.mem_of_mem_eraseP member)
  · simpa using member

/-- Toggling a patch never leaves two patches between the same sockets. -/
theorem pairwise_toggle
    {graph : Graph U}
    (patch : Patch)
    (distinct : graph.patches.Pairwise fun first second => ¬ first.joinsSame second) :
    (graph.toggle patch).2.patches.Pairwise fun first second => ¬ first.joinsSame second := by
  unfold toggle
  split
  · exact distinct.sublist List.eraseP_sublist
  · rename_i absent
    rw [List.pairwise_append]
    refine ⟨distinct, List.pairwise_singleton _ _, ?_⟩
    intro first firstMember second secondMember joins
    obtain rfl := List.mem_singleton.mp secondMember
    exact absent (List.any_eq_true.mpr ⟨first, firstMember, joins⟩)

variable [UnitLike U]

/-- Whether an end of a patch is a socket of a module that is there. -/
def HasSocket
    (graph : Graph U)
    (endpoint : Endpoint)
    (direction : Direction)
    (signal : Signal) :
    Prop :=
  ∃ unit,
    graph.unit? endpoint.module = some unit ∧
      UnitLike.socket? unit endpoint.socket =
        some ⟨endpoint.socket, direction, signal⟩

/-- Whether a patch leads from an output to an input and both carry its signal. -/
def Fits (graph : Graph U) (patch : Patch) : Prop :=
  graph.HasSocket patch.source .output patch.signal ∧
    graph.HasSocket patch.target .input patch.signal

/-- A socket is there as long as its module keeps its sockets. -/
theorem HasSocket.of_unit?
    {graph other : Graph U}
    {endpoint : Endpoint}
    {direction : Direction}
    {signal : Signal}
    (present : graph.HasSocket endpoint direction signal)
    (keeps :
      ∀ unit, graph.unit? endpoint.module = some unit →
        ∃ kept, other.unit? endpoint.module = some kept ∧
          UnitLike.sockets kept = UnitLike.sockets unit) :
    other.HasSocket endpoint direction signal := by
  obtain ⟨unit, found, isSocket⟩ := present
  obtain ⟨kept, keptFound, sameSockets⟩ := keeps unit found
  refine ⟨kept, keptFound, ?_⟩
  rw [UnitLike.socket?_congr sameSockets]
  exact isSocket

/-- A socket of a module has one direction and one signal. -/
theorem HasSocket.unique
    {graph : Graph U}
    {endpoint : Endpoint}
    {direction otherDirection : Direction}
    {signal otherSignal : Signal}
    (first : graph.HasSocket endpoint direction signal)
    (second : graph.HasSocket endpoint otherDirection otherSignal) :
    direction = otherDirection ∧ signal = otherSignal := by
  obtain ⟨unit, found, isSocket⟩ := first
  obtain ⟨otherUnit, otherFound, isOtherSocket⟩ := second
  rw [found, Option.some.injEq] at otherFound
  subst otherFound
  rw [isSocket] at isOtherSocket
  simp only [Option.some.injEq, Socket.mk.injEq, true_and] at isOtherSocket
  exact isOtherSocket

/-- The socket that is there is one of its module's unit. -/
theorem HasSocket.mem_sockets
    {graph : Graph U}
    {endpoint : Endpoint}
    {direction : Direction}
    {signal : Signal}
    (present : graph.HasSocket endpoint direction signal)
    {unit : U}
    (found : graph.unit? endpoint.module = some unit) :
    ⟨endpoint.socket, direction, signal⟩ ∈ UnitLike.sockets unit := by
  obtain ⟨sameUnit, sameFound, isSocket⟩ := present
  obtain rfl := Option.some.inj (found.symm.trans sameFound)
  exact (UnitLike.socket?_some isSocket).1

section Candidate

variable {graph : Graph U} {first second : Endpoint} {patch : Patch}

/-- The patch from whichever of two sockets is the output. -/
def orient (first second : Endpoint) (firstSocket : Socket) : Patch :=
  if firstSocket.isOutput then
    ⟨first, second, firstSocket.signal⟩
  else
    ⟨second, first, firstSocket.signal⟩

/-- The candidate between two sockets that are there. -/
theorem candidate_of_sockets
    {firstUnit secondUnit : U}
    {firstSocket secondSocket : Socket}
    (firstFound : graph.unit? first.module = some firstUnit)
    (secondFound : graph.unit? second.module = some secondUnit)
    (different : first ≠ second)
    (firstNamed : UnitLike.socket? firstUnit first.socket = some firstSocket)
    (secondNamed : UnitLike.socket? secondUnit second.socket = some secondSocket) :
    graph.candidate first second =
      if firstSocket.signal ≠ secondSocket.signal then
        .error (.incompatibleTypes firstSocket.signal secondSocket.signal)
      else if firstSocket.direction = secondSocket.direction then
        .error (.directionMismatch firstSocket.direction)
      else
        .ok (orient first second firstSocket) := by
  by_cases sameSignal : firstSocket.signal = secondSocket.signal
  · by_cases sameDirection : firstSocket.direction = secondSocket.direction
    · simp [candidate, unitAt, socketAt, firstFound, secondFound, firstNamed, secondNamed,
        different, sameSignal, sameDirection, Signal.validate, Signal.connects, bind,
        Except.bind, throw, throwThe, MonadExceptOf.throw]
    · by_cases isOutput : firstSocket.isOutput <;>
        simp [candidate, unitAt, socketAt, firstFound, secondFound, firstNamed, secondNamed,
          different, sameSignal, sameDirection, Signal.validate, Signal.connects, bind,
          Except.bind, pure, Except.pure, orient, isOutput]
  · simp [candidate, unitAt, socketAt, firstFound, secondFound, firstNamed, secondNamed,
      different, sameSignal, Signal.validate, Signal.connects, bind, Except.bind]

theorem candidate_self
    {unit : U}
    (found : graph.unit? first.module = some unit) :
    graph.candidate first first = .error .selfConnection := by
  simp [candidate, unitAt, found, bind, Except.bind, throw, throwThe, MonadExceptOf.throw]

theorem candidate_of_unknown_first
    {firstUnit secondUnit : U}
    (firstFound : graph.unit? first.module = some firstUnit)
    (secondFound : graph.unit? second.module = some secondUnit)
    (different : first ≠ second)
    (unknown : UnitLike.socket? firstUnit first.socket = none) :
    graph.candidate first second = .error (.unknownSocket first) := by
  simp [candidate, unitAt, socketAt, firstFound, secondFound, different, unknown, bind,
    Except.bind]

theorem candidate_of_unknown_second
    {firstUnit secondUnit : U}
    {firstSocket : Socket}
    (firstFound : graph.unit? first.module = some firstUnit)
    (secondFound : graph.unit? second.module = some secondUnit)
    (different : first ≠ second)
    (firstNamed : UnitLike.socket? firstUnit first.socket = some firstSocket)
    (unknown : UnitLike.socket? secondUnit second.socket = none) :
    graph.candidate first second = .error (.unknownSocket second) := by
  simp [candidate, unitAt, socketAt, firstFound, secondFound, different, firstNamed, unknown,
    bind, Except.bind]

/-- What there must be for two sockets to have a candidate. -/
theorem sockets_of_candidate
    (isCandidate : graph.candidate first second = .ok patch) :
    ∃ firstUnit secondUnit firstSocket secondSocket,
      graph.unit? first.module = some firstUnit ∧
        graph.unit? second.module = some secondUnit ∧
        first ≠ second ∧
        UnitLike.socket? firstUnit first.socket = some firstSocket ∧
        UnitLike.socket? secondUnit second.socket = some secondSocket := by
  cases firstFound : graph.unit? first.module with
  | none =>
      simp [candidate, unitAt, firstFound, bind, Except.bind] at isCandidate
  | some firstUnit =>
      cases secondFound : graph.unit? second.module with
      | none =>
          simp [candidate, unitAt, firstFound, secondFound, bind, Except.bind] at isCandidate
      | some secondUnit =>
          by_cases same : first = second
          · subst same
            rw [candidate_self firstFound] at isCandidate
            cases isCandidate
          · cases firstNamed : UnitLike.socket? firstUnit first.socket with
            | none =>
                rw [candidate_of_unknown_first firstFound secondFound same firstNamed]
                  at isCandidate
                cases isCandidate
            | some firstSocket =>
                cases secondNamed : UnitLike.socket? secondUnit second.socket with
                | none =>
                    rw [candidate_of_unknown_second firstFound secondFound same firstNamed
                      secondNamed] at isCandidate
                    cases isCandidate
                | some secondSocket =>
                    exact ⟨firstUnit, secondUnit, firstSocket, secondSocket, rfl, rfl, same,
                      firstNamed, secondNamed⟩

/-- Two sockets have a candidate exactly when the patch between them fits. -/
theorem candidate_eq_ok_iff :
    graph.candidate first second = .ok patch ↔
      graph.Fits patch ∧
        (patch.source = first ∧ patch.target = second ∨
          patch.source = second ∧ patch.target = first) := by
  constructor
  · intro isCandidate
    obtain ⟨firstUnit, secondUnit, firstSocket, secondSocket,
        firstFound, secondFound, different, firstNamed, secondNamed⟩ :=
      sockets_of_candidate isCandidate
    have firstName := (UnitLike.socket?_some firstNamed).2
    have secondName := (UnitLike.socket?_some secondNamed).2
    rw [candidate_of_sockets firstFound secondFound different firstNamed secondNamed]
      at isCandidate
    split at isCandidate
    · cases isCandidate
    · rename_i sameSignal
      split at isCandidate
      · cases isCandidate
      · rename_i otherDirection
        obtain ⟨firstId, firstDirection, signal⟩ := firstSocket
        obtain ⟨secondId, secondDirection, secondSignal⟩ := secondSocket
        simp only [ne_eq, not_not] at sameSignal otherDirection firstName secondName
        subst sameSignal firstName secondName
        cases isCandidate
        cases firstDirection <;> cases secondDirection
        · exact absurd rfl otherDirection
        · exact ⟨⟨⟨secondUnit, secondFound, secondNamed⟩, ⟨firstUnit, firstFound, firstNamed⟩⟩,
            Or.inr ⟨rfl, rfl⟩⟩
        · exact ⟨⟨⟨firstUnit, firstFound, firstNamed⟩, ⟨secondUnit, secondFound, secondNamed⟩⟩,
            Or.inl ⟨rfl, rfl⟩⟩
        · exact absurd rfl otherDirection
  · rintro ⟨⟨source, target⟩, ends⟩
    obtain ⟨sourceUnit, sourceFound, sourceNamed⟩ := source
    obtain ⟨targetUnit, targetFound, targetNamed⟩ := target
    have different : patch.source ≠ patch.target := by
      intro same
      rw [← same, sourceFound, Option.some.injEq] at targetFound
      subst targetFound
      rw [← same, sourceNamed] at targetNamed
      simp at targetNamed
    rcases ends with ⟨rfl, rfl⟩ | ⟨rfl, rfl⟩
    · rw [candidate_of_sockets sourceFound targetFound different sourceNamed targetNamed]
      simp [orient, Socket.isOutput]
    · rw [candidate_of_sockets targetFound sourceFound different.symm targetNamed sourceNamed]
      simp [orient, Socket.isOutput]

/-- Connecting two sockets toggles the patch that fits between them. -/
theorem connect_eq_ok_iff
    {result : Change × Graph U} :
    graph.connect first second = .ok result ↔
      ∃ patch, graph.candidate first second = .ok patch ∧ graph.toggle patch = result :=
  map_eq_ok_iff

/-- Connecting two sockets that are not joined makes the patch between them. -/
theorem connect_of_candidate
    (isCandidate : graph.candidate first second = .ok patch)
    (absent : ¬ graph.hasPatch first second) :
    graph.connect first second =
      .ok (.connected, { graph with patches := graph.patches ++ [patch] }) := by
  obtain ⟨_, ends⟩ := candidate_eq_ok_iff.mp isCandidate
  have sameEnds (other : Patch) : other.joinsSame patch = other.joins first second := by
    rcases ends with ⟨rfl, rfl⟩ | ⟨rfl, rfl⟩
    · rfl
    · exact Bool.or_comm _ _
  have unjoined : ¬ graph.patches.any (·.joinsSame patch) := by
    simp only [sameEnds]
    exact absent
  refine connect_eq_ok_iff.mpr ⟨patch, isCandidate, ?_⟩
  rw [toggle, if_neg unjoined]

/-- Connecting the ends of a patch that fits makes it, unless their sockets are joined. -/
theorem connect_of_fits
    (fits : graph.Fits patch)
    (unjoined : ∀ other ∈ graph.patches, ¬ other.joinsSame patch) :
    graph.connect patch.source patch.target =
      .ok (.connected, { graph with patches := graph.patches ++ [patch] }) := by
  refine connect_of_candidate (candidate_eq_ok_iff.mpr ⟨fits, Or.inl ⟨rfl, rfl⟩⟩) ?_
  rw [hasPatch, List.any_eq_true]
  rintro ⟨other, member, joins⟩
  exact unjoined other member joins

end Candidate

end Graph

end SynthGraph
