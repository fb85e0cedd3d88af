import SynthGraph.Proofs.Graph.Toggling

namespace SynthGraph.Graph

/-!
# Objections to a connection

Two ends are connected when nothing stands against it.  Otherwise the first
objection is reported, in a fixed order: a module that is not there, an end that
is to be connected to itself, a socket that is not there, signals that differ,
and two sockets on the same side.

A connection that is accepted takes out the one patch between the two ends or
adds one at the end of the list, whichever end is named first
(`WellPatched.answersByRule`).
-/

variable {U : Type}

theorem unit?_eq_none_iff
    {graph : Graph U}
    {id : ModuleId} :
    graph.unit? id = none ↔ graph.module? id = none :=
  Option.map_eq_none_iff

theorem exists_unit?
    {graph : Graph U}
    {id : ModuleId}
    (live : (graph.module? id).isSome) :
    ∃ unit, graph.unit? id = some unit := by
  obtain ⟨module, found⟩ := Option.isSome_iff_exists.mp live
  exact ⟨module.unit, by simp [unit?, found]⟩

variable [UnitLike U]

/-- The socket at an end, if its module is there and has it. -/
def endSocket? (graph : Graph U) (endpoint : Endpoint) : Option Socket :=
  (graph.unit? endpoint.module).bind (UnitLike.socket? · endpoint.socket)

/-- What there must be for two ends to be connected. -/
structure Connectable (graph : Graph U) (first second : Endpoint) : Prop where
  first_live : (graph.module? first.module).isSome
  second_live : (graph.module? second.module).isSome
  different : first ≠ second
  sockets :
    ∃ firstSocket secondSocket,
      graph.endSocket? first = some firstSocket ∧
        graph.endSocket? second = some secondSocket ∧
        firstSocket.signal = secondSocket.signal ∧
        firstSocket.direction ≠ secondSocket.direction

/-- What stands first against connecting two ends. -/
inductive Objection (graph : Graph U) (first second : Endpoint) : ConnectionError → Prop where
  | firstMissing :
      graph.module? first.module = none →
      Objection graph first second (.moduleNotFound first.module)
  | secondMissing :
      (graph.module? first.module).isSome →
      graph.module? second.module = none →
      Objection graph first second (.moduleNotFound second.module)
  | selfConnection :
      (graph.module? first.module).isSome →
      (graph.module? second.module).isSome →
      first = second →
      Objection graph first second .selfConnection
  | unknownFirst :
      (graph.module? first.module).isSome →
      (graph.module? second.module).isSome →
      first ≠ second →
      graph.endSocket? first = none →
      Objection graph first second (.unknownSocket first)
  | unknownSecond {firstSocket : Socket} :
      (graph.module? second.module).isSome →
      first ≠ second →
      graph.endSocket? first = some firstSocket →
      graph.endSocket? second = none →
      Objection graph first second (.unknownSocket second)
  | incompatibleTypes {firstSocket secondSocket : Socket} :
      first ≠ second →
      graph.endSocket? first = some firstSocket →
      graph.endSocket? second = some secondSocket →
      firstSocket.signal ≠ secondSocket.signal →
      Objection graph first second
        (.incompatibleTypes firstSocket.signal secondSocket.signal)
  | directionMismatch {firstSocket secondSocket : Socket} :
      first ≠ second →
      graph.endSocket? first = some firstSocket →
      graph.endSocket? second = some secondSocket →
      firstSocket.signal = secondSocket.signal →
      firstSocket.direction = secondSocket.direction →
      Objection graph first second (.directionMismatch firstSocket.direction)

section Ends

variable {graph : Graph U} {endpoint : Endpoint}

/-- A socket at an end is a socket of the unit there. -/
theorem endSocket?_eq_some_iff
    {socket : Socket} :
    graph.endSocket? endpoint = some socket ↔
      ∃ unit,
        graph.unit? endpoint.module = some unit ∧
          UnitLike.socket? unit endpoint.socket = some socket :=
  Option.bind_eq_some_iff

theorem endSocket?_of_unit?
    {unit : U}
    (found : graph.unit? endpoint.module = some unit) :
    graph.endSocket? endpoint = UnitLike.socket? unit endpoint.socket := by
  rw [endSocket?, found, Option.bind_some]

end Ends

section Answers

variable {graph : Graph U} {first second : Endpoint}

theorem connectable_or_objection
    (graph : Graph U)
    (first second : Endpoint) :
    graph.Connectable first second ∨ ∃ cause, graph.Objection first second cause := by
  cases firstLive : (graph.module? first.module).isSome with
  | false =>
      exact Or.inr ⟨_, .firstMissing (Option.not_isSome_iff_eq_none.mp (by simp [firstLive]))⟩
  | true =>
  cases secondLive : (graph.module? second.module).isSome with
  | false =>
      exact Or.inr
        ⟨_, .secondMissing firstLive (Option.not_isSome_iff_eq_none.mp (by simp [secondLive]))⟩
  | true =>
  by_cases different : first = second
  · exact Or.inr ⟨_, .selfConnection firstLive secondLive different⟩
  cases firstFound : graph.endSocket? first with
  | none =>
      exact Or.inr ⟨_, .unknownFirst firstLive secondLive different firstFound⟩
  | some firstSocket =>
  cases secondFound : graph.endSocket? second with
  | none =>
      exact Or.inr ⟨_, .unknownSecond secondLive different firstFound secondFound⟩
  | some secondSocket =>
  by_cases sameSignal : firstSocket.signal = secondSocket.signal
  · by_cases sameDirection : firstSocket.direction = secondSocket.direction
    · exact Or.inr
        ⟨_, .directionMismatch different firstFound secondFound sameSignal sameDirection⟩
    · exact Or.inl
        ⟨firstLive, secondLive, different,
          firstSocket, secondSocket, firstFound, secondFound, sameSignal, sameDirection⟩
  · exact Or.inr ⟨_, .incompatibleTypes different firstFound secondFound sameSignal⟩

/-- The first objection is what is reported. -/
theorem candidate_of_objection
    {cause : ConnectionError}
    (objection : graph.Objection first second cause) :
    graph.candidate first second = .error cause := by
  cases objection with
  | firstMissing missing =>
      have noUnit := unit?_eq_none_iff.mpr missing
      simp [candidate, unitAt, noUnit, bind, Except.bind]
  | secondMissing firstLive missing =>
      obtain ⟨firstUnit, firstFound⟩ := exists_unit? firstLive
      have noUnit := unit?_eq_none_iff.mpr missing
      simp [candidate, unitAt, firstFound, noUnit, bind, Except.bind]
  | selfConnection firstLive _ same =>
      obtain ⟨unit, found⟩ := exists_unit? firstLive
      rw [← same]
      exact candidate_self found
  | unknownFirst firstLive secondLive different unknown =>
      obtain ⟨firstUnit, firstFound⟩ := exists_unit? firstLive
      obtain ⟨secondUnit, secondFound⟩ := exists_unit? secondLive
      rw [endSocket?_of_unit? firstFound] at unknown
      exact candidate_of_unknown_first firstFound secondFound different unknown
  | unknownSecond secondLive different firstNamed unknown =>
      obtain ⟨firstUnit, firstFound, firstSocket⟩ := endSocket?_eq_some_iff.mp firstNamed
      obtain ⟨secondUnit, secondFound⟩ := exists_unit? secondLive
      rw [endSocket?_of_unit? secondFound] at unknown
      exact candidate_of_unknown_second firstFound secondFound different firstSocket unknown
  | incompatibleTypes different firstNamed secondNamed differentSignal =>
      obtain ⟨firstUnit, firstFound, firstSocket⟩ := endSocket?_eq_some_iff.mp firstNamed
      obtain ⟨secondUnit, secondFound, secondSocket⟩ := endSocket?_eq_some_iff.mp secondNamed
      rw [candidate_of_sockets firstFound secondFound different firstSocket secondSocket,
        if_pos differentSignal]
  | directionMismatch different firstNamed secondNamed sameSignal sameDirection =>
      obtain ⟨firstUnit, firstFound, firstSocket⟩ := endSocket?_eq_some_iff.mp firstNamed
      obtain ⟨secondUnit, secondFound, secondSocket⟩ := endSocket?_eq_some_iff.mp secondNamed
      rw [candidate_of_sockets firstFound secondFound different firstSocket secondSocket,
        if_neg (not_not.mpr sameSignal), if_pos sameDirection]

theorem Connectable.exists_candidate
    (connectable : graph.Connectable first second) :
    ∃ patch, graph.candidate first second = .ok patch := by
  obtain ⟨firstSocket, secondSocket, firstNamed, secondNamed, sameSignal, otherDirection⟩ :=
    connectable.sockets
  obtain ⟨firstUnit, firstFound, firstSocket⟩ := endSocket?_eq_some_iff.mp firstNamed
  obtain ⟨secondUnit, secondFound, secondSocket⟩ := endSocket?_eq_some_iff.mp secondNamed
  rw [candidate_of_sockets firstFound secondFound connectable.different firstSocket secondSocket,
    if_neg (not_not.mpr sameSignal), if_neg otherDirection]
  exact ⟨_, rfl⟩

/-- Connecting is refused for the first objection, and for nothing else. -/
theorem connect_eq_error_iff
    {cause : ConnectionError} :
    graph.connect first second = .error cause ↔ graph.Objection first second cause := by
  constructor
  · intro refused
    rcases graph.connectable_or_objection first second with connectable | ⟨other, objection⟩
    · obtain ⟨patch, isCandidate⟩ := connectable.exists_candidate
      rw [connect, isCandidate] at refused
      cases refused
    · rw [connect, candidate_of_objection objection] at refused
      cases refused
      exact objection
  · intro objection
    rw [connect, candidate_of_objection objection]
    rfl

theorem exists_connect_iff :
    (∃ change patched, graph.connect first second = .ok (change, patched)) ↔
      graph.Connectable first second := by
  constructor
  · rintro ⟨change, patched, accepted⟩
    rcases graph.connectable_or_objection first second with connectable | ⟨cause, objection⟩
    · exact connectable
    · rw [connect_eq_error_iff.mpr objection] at accepted
      cases accepted
  · intro connectable
    obtain ⟨patch, isCandidate⟩ := connectable.exists_candidate
    exact ⟨_, _, connect_eq_ok_iff.mpr ⟨patch, isCandidate, rfl⟩⟩

/-- Which end is named first makes no difference to what is accepted and what it does. -/
theorem connect_comm
    {result : Change × Graph U} :
    graph.connect second first = .ok result ↔ graph.connect first second = .ok result := by
  have sameCandidate (patch : Patch) :
      graph.candidate second first = .ok patch ↔ graph.candidate first second = .ok patch := by
    rw [candidate_eq_ok_iff, candidate_eq_ok_iff, or_comm]
  simp only [connect_eq_ok_iff, sameCandidate]

theorem apply_of_refused
    {cause : ConnectionError}
    (refused : graph.connect first second = .error cause) :
    graph.apply (.connect first second) = graph := by
  simp only [Graph.apply, refused]

end Answers

section Toggled

variable {graph patched : Graph U} {first second : Endpoint}

/-- A new patch is the only one between its ends, and comes last. -/
theorem connect_eq_connected
    (accepted : graph.connect first second = .ok (.connected, patched)) :
    (∀ other ∈ graph.patches, other.pair ≠ s(first, second)) ∧
      ∃ patch,
        graph.Fits patch ∧
          patch.pair = s(first, second) ∧
          patched = { graph with patches := graph.patches ++ [patch] } := by
  obtain ⟨patch, isCandidate, toggled⟩ := connect_eq_ok_iff.mp accepted
  obtain ⟨fits, ends⟩ := candidate_eq_ok_iff.mp isCandidate
  have samePair : patch.pair = s(first, second) := Sym2.eq_iff.mpr ends
  rw [toggle] at toggled
  split at toggled
  · cases toggled
  · rename_i unjoined
    cases toggled
    refine ⟨fun other member same => unjoined ?_, patch, fits, samePair, rfl⟩
    exact List.any_eq_true.mpr
      ⟨other, member, Patch.joinsSame_iff.mpr (same.trans samePair.symm)⟩

/-- The patch that is taken out is the only one between its ends. -/
theorem WellPatched.connect_eq_disconnected
    (wellPatched : graph.WellPatched)
    (accepted : graph.connect first second = .ok (.disconnected, patched)) :
    ∃ before patch after,
      graph.patches = before ++ patch :: after ∧
        patch.pair = s(first, second) ∧
        (∀ other ∈ before ++ after, other.pair ≠ s(first, second)) ∧
        patched = { graph with patches := before ++ after } := by
  obtain ⟨candidate, isCandidate, toggled⟩ := connect_eq_ok_iff.mp accepted
  have samePair : candidate.pair = s(first, second) :=
    Sym2.eq_iff.mpr (candidate_eq_ok_iff.mp isCandidate).2
  rw [toggle] at toggled
  split at toggled
  · rename_i isJoined
    cases toggled
    obtain ⟨joined, member, same⟩ := List.any_eq_true.mp isJoined
    obtain ⟨patch, before, after, _, isSame, whole, rest⟩ :=
      List.exists_of_eraseP (p := (·.joinsSame candidate)) member same
    rw [rest]
    refine ⟨before, patch, after, whole, (Patch.joinsSame_iff.mp isSame).trans samePair, ?_, rfl⟩
    intro other remains
    rw [← samePair]
    exact pair_ne_of_mem_eraseP wellPatched.not_joinsSame (rest ▸ remains)
  · cases toggled

/-- Afterwards the ends are joined exactly if they were connected just now. -/
theorem WellPatched.hasPatch_connect_iff
    (wellPatched : graph.WellPatched)
    {change : Change}
    (accepted : graph.connect first second = .ok (change, patched)) :
    patched.hasPatch first second ↔ change = .connected := by
  rw [hasPatch_iff]
  cases change with
  | connected =>
      obtain ⟨_, patch, _, samePair, rfl⟩ := connect_eq_connected accepted
      exact iff_of_true ⟨patch, by simp, samePair⟩ rfl
  | disconnected =>
      obtain ⟨before, patch, after, _, _, noneLeft, rfl⟩ :=
        wellPatched.connect_eq_disconnected accepted
      refine iff_of_false ?_ (by simp)
      rintro ⟨other, remains, samePair⟩
      exact noneLeft other remains samePair

end Toggled

/-- What is answered to a request to connect two ends of a graph. -/
structure AnswersByRule (graph : Graph U) (first second : Endpoint) : Prop where
  accepted_iff :
    (∃ change patched, graph.connect first second = .ok (change, patched)) ↔
      graph.Connectable first second
  refused_iff :
    ∀ cause, graph.connect first second = .error cause ↔ graph.Objection first second cause
  /-- A refusal leaves the graph as it was. -/
  unchanged :
    ∀ cause,
      graph.connect first second = .error cause →
        graph.apply (.connect first second) = graph
  /-- The only patch between the two ends is taken out, and the others keep their places. -/
  disconnected :
    ∀ patched,
      graph.connect first second = .ok (.disconnected, patched) →
        ∃ before patch after,
          graph.patches = before ++ patch :: after ∧
            patch.pair = s(first, second) ∧
            (∀ other ∈ before ++ after, other.pair ≠ s(first, second)) ∧
            patched = { graph with patches := before ++ after }
  /-- A patch that fits is added after the others, none of which joins the two ends. -/
  connected :
    ∀ patched,
      graph.connect first second = .ok (.connected, patched) →
        (∀ other ∈ graph.patches, other.pair ≠ s(first, second)) ∧
          ∃ patch,
            graph.Fits patch ∧
              patch.pair = s(first, second) ∧
              patched = { graph with patches := graph.patches ++ [patch] }
  /-- Afterwards the two ends are joined if the answer says so. -/
  joined :
    ∀ change patched,
      graph.connect first second = .ok (change, patched) →
        (patched.hasPatch first second ↔ change = .connected)
  /-- Either end may be named first. -/
  swapped :
    ∀ result,
      graph.connect second first = .ok result ↔ graph.connect first second = .ok result

theorem WellPatched.answersByRule
    {graph : Graph U}
    (wellPatched : graph.WellPatched)
    (first second : Endpoint) :
    graph.AnswersByRule first second where
  accepted_iff := exists_connect_iff
  refused_iff _ := connect_eq_error_iff
  unchanged _ refused := apply_of_refused refused
  disconnected _ accepted := wellPatched.connect_eq_disconnected accepted
  connected _ accepted := connect_eq_connected accepted
  joined _ _ accepted := wellPatched.hasPatch_connect_iff accepted
  swapped _ := connect_comm

/-- In every graph that operations build or that is loaded, connecting follows the rule. -/
theorem catalogs_answerByRule :
    (∀ (operations : List (Operation InstrumentUnit)) (first second : Endpoint),
        (empty.run operations).AnswersByRule first second) ∧
      (∀ (operations : List (Operation SequenceUnit)) (first second : Endpoint),
        (empty.run operations).AnswersByRule first second) ∧
      (∀ instrument : Instrument,
        instrument.Reachable → ∀ first second, instrument.graph.AnswersByRule first second) ∧
      ∀ sequence : Sequence,
        sequence.Reachable → ∀ first second, sequence.graph.AnswersByRule first second :=
  ⟨fun operations => (wellPatched_run operations).answersByRule,
    fun operations => (wellPatched_run operations).answersByRule,
    fun _ reachable => reachable.storable.wellPatched.answersByRule,
    fun _ reachable => reachable.storable.wellPatched.answersByRule⟩

/-- A sound whose cables are pulled and laid again, and what cannot be connected there. -/
theorem catalogs_answerByRule_patched :
    let sound : List (Operation InstrumentUnit) :=
      [.add (.ofWaveform .sine) .origin, .add (.ofMode .lowPass) .origin, .remove 2,
        .connect ⟨3, "OUT"⟩ ⟨3, "IN"⟩, .connect ⟨1, "IN"⟩ ⟨3, "OUT"⟩]
    let beat : List (Operation SequenceUnit) :=
      [.add (.playNote PlayNote.dials) .origin]
    let instrument : Instrument := ⟨none, none, Instrument.new.graph.run sound⟩
    let sequence : Sequence := ⟨5, (Sequence.new 5).graph.run beat⟩
    let pulled := { instrument.graph with patches := [⟨⟨3, "OUT"⟩, ⟨1, "IN"⟩, .audio⟩] }
    instrument.graph.connect ⟨3, "IN"⟩ ⟨3, "OUT"⟩ = .ok (.disconnected, pulled) ∧
      instrument.graph.connect ⟨3, "OUT"⟩ ⟨3, "IN"⟩ = .ok (.disconnected, pulled) ∧
      pulled.hasPatch ⟨3, "IN"⟩ ⟨3, "OUT"⟩ = false ∧
      instrument.graph.connect ⟨2, "OUT"⟩ ⟨2, "OUT"⟩ = .error (.moduleNotFound 2) ∧
      instrument.graph.connect ⟨3, "out"⟩ ⟨3, "out"⟩ = .error .selfConnection ∧
      instrument.graph.connect ⟨0, "FREQ"⟩ ⟨1, "IN"⟩ =
        .error (.incompatibleTypes .frequency .audio) ∧
      sequence.graph.connect ⟨0, "CLOCK"⟩ ⟨1, "TRIG"⟩ =
        .error (.incompatibleTypes .clock .trigger) ∧
      sequence.graph.connect ⟨1, "NOTE"⟩ ⟨1, "VEL"⟩ = .error (.directionMismatch .input) := by
  intro sound beat instrument sequence pulled
  have instrumentReachable : instrument.Reachable :=
    Instrument.reachable_run (Operation.drawn_of_isPlain (by decide +kernel)) _ _
  have sequenceReachable : sequence.Reachable :=
    Sequence.reachable_run (Operation.drawn_of_isPlain (by decide +kernel)) 5
  have answers := catalogs_answerByRule.2.2.1 instrument instrumentReachable
  have sequenceAnswers := catalogs_answerByRule.2.2.2 sequence sequenceReachable
  have isPulled :
      instrument.graph.connect ⟨3, "IN"⟩ ⟨3, "OUT"⟩ = .ok (.disconnected, pulled) := by
    decide +kernel
  have frequency :
      instrument.graph.endSocket? ⟨0, "FREQ"⟩ = some (.output "FREQ" .frequency) := by
    decide +kernel
  have audio : instrument.graph.endSocket? ⟨1, "IN"⟩ = some (.input "IN" .audio) := by
    decide +kernel
  have clock : sequence.graph.endSocket? ⟨0, "CLOCK"⟩ = some (.output "CLOCK" .clock) := by
    decide +kernel
  have trigger : sequence.graph.endSocket? ⟨1, "TRIG"⟩ = some (.input "TRIG" .trigger) := by
    decide +kernel
  have note : sequence.graph.endSocket? ⟨1, "NOTE"⟩ = some (.input "NOTE" .integer) := by
    decide +kernel
  have velocity : sequence.graph.endSocket? ⟨1, "VEL"⟩ = some (.input "VEL" .integer) := by
    decide +kernel
  refine ⟨isPulled, ((answers _ _).swapped _).mpr isPulled, ?_, ?_, ?_, ?_, ?_, ?_⟩
  · have notConnected := mt ((answers _ _).joined _ _ isPulled).mp (by decide)
    exact Bool.eq_false_of_not_eq_true notConnected
  · exact ((answers _ _).refused_iff _).mpr (.firstMissing (by decide +kernel))
  · exact ((answers _ _).refused_iff _).mpr
      (.selfConnection (by decide +kernel) (by decide +kernel) rfl)
  · exact ((answers _ _).refused_iff _).mpr
      (.incompatibleTypes (by decide) frequency audio (by decide))
  · exact ((sequenceAnswers _ _).refused_iff _).mpr
      (.incompatibleTypes (by decide) clock trigger (by decide))
  · exact ((sequenceAnswers _ _).refused_iff _).mpr
      (.directionMismatch (by decide) note velocity (by decide) (by decide))

end SynthGraph.Graph
