import SynthGraph.Proofs.GraphFile.RoundTrip

namespace SynthGraph

/-!
# Toggling

A request to connect two sockets succeeds or fails on account of the modules
alone, and a request that succeeds toggles the pair of sockets that it names.  So
after several requests a pair is joined if either it was joined before or an odd
number of successful requests named it (`Graph.hasPatch_connectAll`), and the
order of the requests makes no difference to what is joined.
-/

/-- Two sockets that are to be connected. -/
structure ConnectRequest where
  first : Endpoint
  second : Endpoint
  deriving Repr, DecidableEq

namespace ConnectRequest

/-- The sockets that a request names, in either order. -/
def pair (request : ConnectRequest) : Sym2 Endpoint :=
  s(request.first, request.second)

/-- The request as an operation on a graph. -/
def operation {U : Type} (request : ConnectRequest) : Operation U :=
  .connect request.first request.second

end ConnectRequest

namespace Patch

/-- The sockets that a patch joins, in either order. -/
def pair (patch : Patch) : Sym2 Endpoint :=
  s(patch.source, patch.target)

theorem joinsSame_iff
    {patch other : Patch} :
    patch.joinsSame other ↔ patch.pair = other.pair := by
  simp [joinsSame, pair]

theorem joins_iff
    {patch : Patch}
    {first second : Endpoint} :
    patch.joins first second ↔ patch.pair = s(first, second) := by
  simp [joins, pair]

end Patch

namespace Graph

section Joining

variable {U : Type} {graph : Graph U}

theorem hasPatch_iff
    {first second : Endpoint} :
    graph.hasPatch first second ↔ ∃ patch ∈ graph.patches, patch.pair = s(first, second) := by
  simp only [hasPatch, List.any_eq_true, Patch.joins_iff]

/-- Of patches that join different sockets one is erased, and no other joins the same. -/
theorem pair_ne_of_mem_eraseP
    (distinct : graph.patches.Pairwise fun first second => ¬ first.joinsSame second)
    {patch other : Patch}
    (remains : other ∈ graph.patches.eraseP (·.joinsSame patch)) :
    other.pair ≠ patch.pair := by
  intro same
  obtain ⟨erased, before, after, noneBefore, isErased, whole, rest⟩ :=
    List.exists_of_eraseP (p := (·.joinsSame patch)) (List.mem_of_mem_eraseP remains)
      (Patch.joinsSame_iff.mpr same)
  rw [rest] at remains
  rcases List.mem_append.mp remains with isBefore | isAfter
  · exact noneBefore other isBefore (Patch.joinsSame_iff.mpr same)
  · rw [whole, List.pairwise_append, List.pairwise_cons] at distinct
    exact distinct.2.1.1 other isAfter
      (Patch.joinsSame_iff.mpr ((Patch.joinsSame_iff.mp isErased).trans same.symm))

/-- Toggling a patch changes whether its own sockets are joined, and no others. -/
theorem hasPatch_toggle
    (distinct : graph.patches.Pairwise fun first second => ¬ first.joinsSame second)
    (patch : Patch)
    (first second : Endpoint) :
    (graph.toggle patch).2.hasPatch first second =
      (graph.hasPatch first second ^^ decide (patch.pair = s(first, second))) := by
  by_cases isNamed : patch.pair = s(first, second)
  · -- The sockets of the patch are joined exactly when there is something to erase.
    have joined : graph.hasPatch first second = graph.patches.any (·.joinsSame patch) := by
      rw [Bool.eq_iff_iff, hasPatch_iff, List.any_eq_true]
      simp only [Patch.joinsSame_iff, isNamed]
    rw [joined, toggle]
    split
    · rename_i isJoined
      have noneLeft :
          hasPatch { graph with patches := graph.patches.eraseP (·.joinsSame patch) }
            first second = false := by
        rw [← Bool.not_eq_true, hasPatch_iff]
        rintro ⟨other, remains, sameSockets⟩
        exact pair_ne_of_mem_eraseP distinct remains (sameSockets.trans isNamed.symm)
      simp [noneLeft, isJoined, isNamed]
    · rename_i unjoined
      have added :
          hasPatch { graph with patches := graph.patches ++ [patch] } first second = true := by
        rw [hasPatch_iff]
        exact ⟨patch, by simp, isNamed⟩
      simp [added, unjoined, isNamed]
  · have kept : (graph.toggle patch).2.hasPatch first second = graph.hasPatch first second := by
      rw [toggle]
      split
      · rw [Bool.eq_iff_iff, hasPatch_iff, hasPatch_iff]
        apply exists_congr
        intro other
        apply and_congr_left
        intro sameSockets
        have different : ¬ other.joinsSame patch := by
          rw [Patch.joinsSame_iff, sameSockets]
          exact Ne.symm isNamed
        exact List.mem_eraseP_of_neg different
      · rw [Bool.eq_iff_iff, hasPatch_iff, hasPatch_iff]
        simp [isNamed]
    rw [kept]
    simp [isNamed]

/-- A patch that is made and then toggled again is gone without a trace. -/
theorem toggle_toggle
    {patch : Patch}
    (unjoined : ¬ graph.hasPatch patch.source patch.target) :
    ((graph.toggle patch).2.toggle patch).2 = graph := by
  have noneSame : ∀ other ∈ graph.patches, ¬ other.joinsSame patch := by
    intro other member same
    exact unjoined (hasPatch_iff.mpr ⟨other, member, Patch.joinsSame_iff.mp same⟩)
  have absent : ¬ graph.patches.any (·.joinsSame patch) := by
    rintro isJoined
    obtain ⟨other, member, same⟩ := List.any_eq_true.mp isJoined
    exact noneSame other member same
  have itself : patch.joinsSame patch := Patch.joinsSame_iff.mpr rfl
  have made : (graph.toggle patch).2 = { graph with patches := graph.patches ++ [patch] } := by
    rw [toggle, if_neg absent]
  have isJoined : (graph.patches ++ [patch]).any (·.joinsSame patch) := by
    simp [itself]
  rw [made, toggle, if_pos isJoined, List.eraseP_append_right _ noneSame]
  simp [itself]

end Joining

variable {U : Type} [UnitLike U]

/-- Whether a request succeeds. -/
def grants (graph : Graph U) (request : ConnectRequest) : Bool :=
  (graph.connect request.first request.second).isOk

/-- The graph after several requests. -/
def connectAll (graph : Graph U) (requests : List ConnectRequest) : Graph U :=
  graph.run (requests.map ConnectRequest.operation)

/-- The requests that succeed when they are made one after the other. -/
def granted (graph : Graph U) : List ConnectRequest → List ConnectRequest
  | [] => []
  | request :: rest =>
      let later := (graph.apply request.operation).granted rest
      if graph.grants request then request :: later else later

section Modules

variable {graph other : Graph U} {request : ConnectRequest} {first second : Endpoint}

theorem candidate_congr
    (sameModules : other.modules = graph.modules)
    (first second : Endpoint) :
    other.candidate first second = graph.candidate first second := by
  simp only [candidate, unitAt, unit?, module?, sameModules]

/-- A request succeeds if there is a patch for it to toggle. -/
theorem grants_eq
    (graph : Graph U)
    (request : ConnectRequest) :
    graph.grants request = (graph.candidate request.first request.second).isOk := by
  rw [grants, connect]
  cases graph.candidate request.first request.second <;> rfl

theorem grants_congr
    (sameModules : other.modules = graph.modules)
    (request : ConnectRequest) :
    other.grants request = graph.grants request := by
  rw [grants_eq, grants_eq, candidate_congr sameModules]

theorem apply_of_candidate
    {patch : Patch}
    (isCandidate : graph.candidate request.first request.second = .ok patch) :
    graph.apply request.operation = (graph.toggle patch).2 := by
  simp only [Graph.apply, ConnectRequest.operation, connect, isCandidate]
  rfl

/-- A request toggles the patch between its sockets, or fails and changes nothing. -/
theorem apply_request
    (graph : Graph U)
    (request : ConnectRequest) :
    (∃ patch,
        graph.candidate request.first request.second = .ok patch ∧
          graph.grants request = true ∧
          patch.pair = request.pair ∧
          graph.apply request.operation = (graph.toggle patch).2) ∨
      graph.grants request = false ∧ graph.apply request.operation = graph := by
  rw [grants_eq]
  cases result : graph.candidate request.first request.second with
  | ok patch =>
      obtain ⟨_, ends⟩ := candidate_eq_ok_iff.mp result
      exact Or.inl ⟨patch, rfl, rfl, Sym2.eq_iff.mpr ends, apply_of_candidate result⟩
  | error cause =>
      refine Or.inr ⟨rfl, ?_⟩
      simp only [Graph.apply, ConnectRequest.operation, connect, result]
      rfl

theorem modules_request
    (graph : Graph U)
    (request : ConnectRequest) :
    (graph.apply request.operation).modules = graph.modules := by
  rcases graph.apply_request request with ⟨patch, _, _, _, toggled⟩ | ⟨_, unchanged⟩
  · rw [toggled, toggle_modules]
  · rw [unchanged]

theorem modules_connectAll
    (graph : Graph U)
    (requests : List ConnectRequest) :
    (graph.connectAll requests).modules = graph.modules := by
  induction requests generalizing graph with
  | nil =>
      rfl
  | cons request rest inductionHypothesis =>
      exact (inductionHypothesis _).trans (modules_request graph request)

theorem connectAll_append
    (graph : Graph U)
    (requests others : List ConnectRequest) :
    graph.connectAll (requests ++ others) = (graph.connectAll requests).connectAll others := by
  simp only [connectAll, run, List.map_append, List.foldl_append]

/-- What was requested before does not count for whether a request succeeds. -/
theorem granted_eq_filter
    (graph : Graph U)
    (requests : List ConnectRequest) :
    graph.granted requests = requests.filter graph.grants := by
  induction requests generalizing graph with
  | nil =>
      rfl
  | cons request rest inductionHypothesis =>
      have sameGrants : (graph.apply request.operation).grants = graph.grants :=
        funext fun later => grants_congr (modules_request graph request) later
      rw [granted, inductionHypothesis, sameGrants, List.filter_cons]

end Modules

section Parity

variable {graph : Graph U} (wellPatched : graph.WellPatched)

include wellPatched

theorem hasPatch_request
    (request : ConnectRequest)
    (first second : Endpoint) :
    (graph.apply request.operation).hasPatch first second =
      (graph.hasPatch first second ^^
        (graph.grants request && decide (request.pair = s(first, second)))) := by
  rcases graph.apply_request request with
    ⟨patch, _, isGranted, samePair, toggled⟩ | ⟨refused, unchanged⟩
  · rw [toggled, hasPatch_toggle wellPatched.not_joinsSame, isGranted, samePair, Bool.true_and]
  · rw [unchanged, refused, Bool.false_and, Bool.xor_false]

/-- What is joined tells which patches there are, since the modules tell how a patch runs. -/
theorem mem_patches_of_joined
    {other : Graph U}
    (sameModules : other.modules = graph.modules)
    {patch : Patch}
    (fits : other.Fits patch)
    (joined : graph.hasPatch patch.source patch.target) :
    patch ∈ graph.patches := by
  obtain ⟨found, member, samePair⟩ := hasPatch_iff.mp joined
  have sameFits : graph.Fits patch := by
    simpa only [Fits, HasSocket, unit?, module?, sameModules] using fits
  have foundFits := wellPatched.fits member
  rcases Sym2.eq_iff.mp samePair with ⟨source, target⟩ | ⟨source, target⟩
  · have sameSignal : found.signal = patch.signal := by
      have foundSource := foundFits.1
      rw [source] at foundSource
      exact (foundSource.unique sameFits.1).2
    obtain rfl : found = patch := by
      cases found
      cases patch
      simp_all
    exact member
  · -- An output is no input, so no patch runs the other way.
    have foundSource := foundFits.1
    rw [source] at foundSource
    cases (foundSource.unique sameFits.2).1

theorem perm_patches_of_joined
    {other : Graph U}
    (otherWellPatched : other.WellPatched)
    (sameModules : other.modules = graph.modules)
    (sameJoined : ∀ first second, other.hasPatch first second = graph.hasPatch first second) :
    other.patches.Perm graph.patches := by
  rw [List.perm_ext_iff_of_nodup otherWellPatched.nodup_patches wellPatched.nodup_patches]
  intro patch
  have isJoined {whole : Graph U} (member : patch ∈ whole.patches) :
      whole.hasPatch patch.source patch.target :=
    hasPatch_iff.mpr ⟨patch, member, rfl⟩
  constructor
  · intro member
    refine mem_patches_of_joined wellPatched sameModules (otherWellPatched.fits member) ?_
    rw [← sameJoined]
    exact isJoined member
  · intro member
    refine mem_patches_of_joined otherWellPatched sameModules.symm (wellPatched.fits member) ?_
    rw [sameJoined]
    exact isJoined member

variable [LawfulUnit U]

theorem wellPatched_connectAll
    (requests : List ConnectRequest) :
    (graph.connectAll requests).WellPatched :=
  run_induction (fun _ operation wellPatched => wellPatched.apply operation) wellPatched _

/-- Two sockets are joined if they were or were named an odd number of times, but not both. -/
theorem hasPatch_connectAll
    (requests : List ConnectRequest)
    (first second : Endpoint) :
    (graph.connectAll requests).hasPatch first second =
      (graph.hasPatch first second ^^
        decide (Odd ((graph.granted requests).countP (·.pair = s(first, second))))) := by
  induction requests generalizing graph with
  | nil =>
      simp [connectAll, run, granted]
  | cons request rest inductionHypothesis =>
      have later := inductionHypothesis (wellPatched.apply request.operation)
      rw [hasPatch_request wellPatched] at later
      refine later.trans ?_
      rw [granted, Bool.xor_assoc]
      congr 1
      by_cases isGranted : graph.grants request
      · by_cases isNamed : request.pair = s(first, second)
        · simp only [isGranted, isNamed, if_true, List.countP_cons, decide_true, Nat.odd_add_one,
            Bool.true_and, Bool.true_xor, decide_not]
        · simp [isGranted, isNamed]
      · simp [isGranted]

section Order

variable {requests others : List ConnectRequest}

theorem connectAll_perm
    (permuted : requests.Perm others) :
    (graph.connectAll requests).patches.Perm (graph.connectAll others).patches := by
  apply perm_patches_of_joined (wellPatched_connectAll wellPatched others)
    (wellPatched_connectAll wellPatched requests)
  · rw [modules_connectAll, modules_connectAll]
  · intro first second
    simp only [hasPatch_connectAll wellPatched, granted_eq_filter,
      (permuted.filter graph.grants).countP_eq]

/-- Requesting the same twice leaves what is joined. -/
theorem connectAll_twice
    (request : ConnectRequest) :
    (graph.connectAll [request, request]).patches.Perm graph.patches := by
  apply perm_patches_of_joined wellPatched (wellPatched_connectAll wellPatched _)
  · exact modules_connectAll graph _
  · intro first second
    have sameGrants :
        (graph.apply request.operation).grants request = graph.grants request :=
      grants_congr (modules_request graph request) request
    have once := hasPatch_request wellPatched request first second
    have twice := hasPatch_request (wellPatched.apply request.operation) request first second
    rw [once, sameGrants, Bool.xor_assoc, Bool.xor_self, Bool.xor_false] at twice
    exact twice

omit wellPatched [LawfulUnit U] in
theorem connectAll_twice_of_unjoined
    {request : ConnectRequest}
    (unjoined : ¬ graph.hasPatch request.first request.second) :
    graph.connectAll [request, request] = graph := by
  have whole :
      graph.connectAll [request, request] =
        (graph.apply request.operation).apply request.operation := rfl
  rw [whole]
  rcases graph.apply_request request with
    ⟨patch, isCandidate, _, samePair, toggled⟩ | ⟨_, unchanged⟩
  · have sameCandidate :
        (graph.apply request.operation).candidate request.first request.second = .ok patch := by
      rw [candidate_congr (modules_request graph request), isCandidate]
    rw [apply_of_candidate sameCandidate, toggled]
    apply toggle_toggle
    rw [hasPatch_iff] at unjoined ⊢
    rw [← ConnectRequest.pair, ← samePair] at unjoined
    exact unjoined
  · rw [unchanged, unchanged]

end Order

end Parity

/-- What requests to connect sockets make of the patches of a graph. -/
structure TogglesByParity (graph : Graph U) : Prop where
  /-- Whether a request succeeds is settled by the modules. -/
  of_modules :
    ∀ other : Graph U, other.modules = graph.modules →
      ∀ request, other.grants request = graph.grants request
  /-- Requests before it make no difference to whether a request succeeds. -/
  grants :
    ∀ requests request, (graph.connectAll requests).grants request = graph.grants request
  granted :
    ∀ requests, graph.granted requests = requests.filter graph.grants
  /-- A pair of sockets is joined if it was or if it was named an odd number of times, not both. -/
  joined :
    ∀ requests first second,
      (graph.connectAll requests).hasPatch first second =
        (graph.hasPatch first second ^^
          decide (Odd ((graph.granted requests).countP (·.pair = s(first, second)))))
  /-- Requests in another order make the same patches. -/
  reordered :
    ∀ requests others : List ConnectRequest, requests.Perm others →
      (graph.connectAll requests).patches.Perm (graph.connectAll others).patches
  /-- A request that is made twice in a row leaves the patches that were there. -/
  repeated :
    ∀ requests request,
      (graph.connectAll (requests ++ [request, request])).patches.Perm
        (graph.connectAll requests).patches
  /-- If its sockets were not joined, it leaves the graph as it was. -/
  repeated_unjoined :
    ∀ requests request,
      ¬ (graph.connectAll requests).hasPatch request.first request.second →
        graph.connectAll (requests ++ [request, request]) = graph.connectAll requests

theorem WellPatched.togglesByParity
    [LawfulUnit U]
    {graph : Graph U}
    (wellPatched : graph.WellPatched) :
    graph.TogglesByParity where
  of_modules _ sameModules request := grants_congr sameModules request
  grants requests request := grants_congr (modules_connectAll graph requests) request
  granted := granted_eq_filter graph
  joined := hasPatch_connectAll wellPatched
  reordered _ _ permuted := connectAll_perm wellPatched permuted
  repeated requests request := by
    rw [connectAll_append]
    exact connectAll_twice (wellPatched_connectAll wellPatched requests) request
  repeated_unjoined requests request unjoined := by
    rw [connectAll_append]
    exact connectAll_twice_of_unjoined unjoined

/-- In every graph that operations build or that is loaded, requests toggle by parity. -/
theorem catalogs_togglesByParity :
    (∀ operations : List (Operation InstrumentUnit), (empty.run operations).TogglesByParity) ∧
      (∀ operations : List (Operation SequenceUnit), (empty.run operations).TogglesByParity) ∧
      (∀ instrument : Instrument, instrument.Reachable → instrument.graph.TogglesByParity) ∧
      ∀ sequence : Sequence, sequence.Reachable → sequence.graph.TogglesByParity :=
  ⟨fun operations => (wellPatched_run operations).togglesByParity,
    fun operations => (wellPatched_run operations).togglesByParity,
    fun _ reachable => reachable.storable.wellPatched.togglesByParity,
    fun _ reachable => reachable.storable.wellPatched.togglesByParity⟩

/-- Three requests for one cable, one of them refused, and a request for another that was there. -/
theorem catalogs_togglesByParity_patched :
    let sound : List (Operation InstrumentUnit) :=
      [.add (.ofWaveform .sine) .origin, .connect ⟨0, "FREQ"⟩ ⟨2, "FREQ"⟩]
    let beat : List (Operation SequenceUnit) :=
      [.add (.pulse Pulse.dials) .origin]
    let instrument : Instrument := ⟨none, none, Instrument.new.graph.run sound⟩
    let sequence : Sequence := ⟨5, (Sequence.new 5).graph.run beat⟩
    let requests : List ConnectRequest :=
      [⟨⟨2, "OUT"⟩, ⟨1, "IN"⟩⟩, ⟨⟨2, "OUT"⟩, ⟨7, "IN"⟩⟩, ⟨⟨1, "IN"⟩, ⟨2, "OUT"⟩⟩,
        ⟨⟨2, "FREQ"⟩, ⟨0, "FREQ"⟩⟩, ⟨⟨2, "OUT"⟩, ⟨1, "IN"⟩⟩]
    instrument.graph.granted requests = requests.eraseIdx 1 ∧
      (instrument.graph.connectAll requests).hasPatch ⟨2, "OUT"⟩ ⟨1, "IN"⟩ = true ∧
      (instrument.graph.connectAll requests).hasPatch ⟨0, "FREQ"⟩ ⟨2, "FREQ"⟩ = false ∧
      (instrument.graph.connectAll requests.reverse).patches.Perm
        (instrument.graph.connectAll requests).patches ∧
      sequence.graph.connectAll
          [⟨⟨1, "CLOCK"⟩, ⟨0, "CLOCK"⟩⟩, ⟨⟨1, "CLOCK"⟩, ⟨0, "CLOCK"⟩⟩] =
        sequence.graph := by
  intro sound beat instrument sequence requests
  have instrumentReachable : instrument.Reachable :=
    Instrument.reachable_run (Operation.drawn_of_isPlain (by decide +kernel)) _ _
  have sequenceReachable : sequence.Reachable :=
    Sequence.reachable_run (Operation.drawn_of_isPlain (by decide +kernel)) 5
  have toggles := catalogs_togglesByParity.2.2.1 instrument instrumentReachable
  have sequenceToggles := catalogs_togglesByParity.2.2.2 sequence sequenceReachable
  have isGranted : instrument.graph.granted requests = requests.eraseIdx 1 := by
    decide +kernel
  refine ⟨isGranted, ?_, ?_, ?_, ?_⟩
  · rw [toggles.joined, isGranted]
    decide +kernel
  · rw [toggles.joined, isGranted]
    decide +kernel
  · exact toggles.reordered _ _ (List.reverse_perm requests)
  · exact sequenceToggles.repeated_unjoined [] _ (by decide +kernel)

end Graph

end SynthGraph
