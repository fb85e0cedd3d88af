import SynthGraph.Proofs.Graph.Meaning
import SynthGraph.Proofs.Definition.Expansion

namespace SynthGraph.Definition

/-!
# Definitions inside a graph

A definition is placed in a graph if the graph has its units and, apart from
places between left and right, its modules have no other patches than those of
the layout, the pitch of its sound sources included.  The parts of a definition
that is placed are placed themselves, so what holds of one module of a definition
can be shown by looking at that module only.
-/

/-- All patches of a definition, with the pitch that outer definitions lead to it. -/
def wiring (definition : Definition) (frequency consumer start : ModuleId) : List Patch :=
  definition.wires frequency consumer start
    ++ (definition.unpitched start).map (.pitch frequency)

/-- The patches of a list that lead to a socket. -/
def leadingTo (endpoint : Endpoint) (patches : List Patch) : List Patch :=
  patches.filter (·.target = endpoint)

section LeadingTo

variable {endpoint : Endpoint} {definition : Definition} {frequency consumer start : ModuleId}

theorem leadingTo_append
    (endpoint : Endpoint)
    (patches others : List Patch) :
    leadingTo endpoint (patches ++ others) = leadingTo endpoint patches ++ leadingTo endpoint others :=
  List.filter_append _ _

theorem leadingTo_eq_nil
    {patches : List Patch}
    (elsewhere : ∀ patch ∈ patches, patch.target ≠ endpoint) :
    leadingTo endpoint patches = [] :=
  List.filter_eq_nil_iff.mpr (by simpa using elsewhere)

/-- No patch leads to modules outside, except where the audio goes. -/
theorem leadingTo_wires_outside
    (outside : ¬ Inside start definition endpoint.module)
    (notConsumer : endpoint ≠ ⟨consumer, "IN"⟩) :
    leadingTo endpoint (definition.wires frequency consumer start) = [] := by
  apply leadingTo_eq_nil
  rintro patch member rfl
  rcases wires_target member with isAudio | inside
  · exact notConsumer isAudio
  · exact outside inside

theorem leadingTo_pitches_outside
    (outside : ¬ Inside start definition endpoint.module) :
    leadingTo endpoint ((definition.unpitched start).map (.pitch frequency)) = [] := by
  apply leadingTo_eq_nil
  intro patch member isTarget
  obtain ⟨generator, isUnpitched, rfl⟩ := List.mem_map.mp member
  rw [← isTarget] at outside
  exact outside ((within_unpitched definition start).bounds generator isUnpitched)

/-- The audio that leaves a definition comes from its heads, in order. -/
theorem leadingTo_consumer
    (definition : Definition)
    {frequency consumer start : Nat}
    (before : consumer < start) :
    leadingTo ⟨consumer, "IN"⟩ (definition.wires frequency consumer start) =
      (definition.heads start).map (Patch.audio · consumer) := by
  induction definition generalizing frequency consumer start with
  | silence =>
      rfl
  | combined first rest firstHypothesis restHypothesis =>
      rw [wires, wiresAll, leadingTo_append, firstHypothesis before, heads, headsAll,
        List.map_append]
      congr 1
      exact restHypothesis (Nat.lt_add_right _ before)
  | panning body inductionHypothesis =>
      rw [wires, leadingTo_append, inductionHypothesis (Nat.lt_succ_of_lt before),
        leadingTo_eq_nil, List.append_nil, heads]
      intro patch member
      simp only [List.mem_append, List.mem_map, List.mem_singleton] at member
      rcases member with ⟨generator, _, rfl⟩ | rfl
      · simp [Patch.place]
      · simp [Patch.pitch]
  | transpose dials body inductionHypothesis =>
      rw [wires, leadingTo_append, inductionHypothesis (Nat.lt_succ_of_lt before),
        leadingTo_eq_nil, List.append_nil, heads]
      intro patch member
      simp only [List.mem_append, List.mem_map, List.mem_singleton] at member
      rcases member with ⟨generator, _, rfl⟩ | rfl
      · simp [Patch.pitch]
      · simp [Patch.shift]
  | generator unit =>
      simp [wires, heads, leadingTo, Patch.audio]
  | omitted =>
      rfl
  | filter mode dials body _ =>
      have outside : ¬ Inside (start + 1) body consumer :=
        fun inside => Nat.not_lt_of_le (Nat.le_of_succ_le inside.1) before
      have different : (⟨consumer, "IN"⟩ : Endpoint) ≠ ⟨start, "IN"⟩ := by
        intro same
        exact Nat.ne_of_lt before (congrArg Endpoint.module same)
      rw [wires, leadingTo_append, leadingTo_wires_outside outside different]
      simp [heads, leadingTo, Patch.audio]

/-- The heads of a definition lead their audio out of it and nowhere else. -/
theorem target_of_head
    (definition : Definition)
    {frequency consumer start : Nat}
    (before : frequency < start)
    {patch : Patch}
    (member : patch ∈ definition.wires frequency consumer start)
    (isHead : patch.source.module ∈ definition.heads start) :
    patch.target = ⟨consumer, "IN"⟩ := by
  induction definition generalizing frequency consumer start with
  | silence =>
      cases member
  | combined first rest firstHypothesis restHypothesis =>
      have later : frequency < start + first.units.length :=
        Nat.lt_add_right _ before
      rcases List.mem_append.mp member with isFirst | isRest
      · rcases List.mem_append.mp isHead with headFirst | headRest
        · exact firstHypothesis before isFirst headFirst
        · have bounds := (within_heads (.combined rest) _).bounds _ headRest
          rcases wires_source isFirst with isPitch | inside
          · rw [isPitch] at bounds
            exact absurd later (Nat.not_lt_of_le bounds.1)
          · exact absurd inside.2 (Nat.not_lt_of_le bounds.1)
      · have inRest :
            patch ∈ (Definition.combined rest).wires frequency consumer
              (start + first.units.length) := isRest
        rcases List.mem_append.mp isHead with headFirst | headRest
        · have bounds := (within_heads first _).bounds _ headFirst
          rcases wires_source inRest with isPitch | inside
          · rw [isPitch] at bounds
            exact absurd before (Nat.not_lt_of_le bounds.1)
          · exact absurd bounds.2 (Nat.not_lt_of_le inside.1)
        · exact restHypothesis later isRest headRest
  | panning body inductionHypothesis =>
      have bounds := (within_heads body (start + 1)).bounds _ isHead
      simp only [wires, List.mem_append, List.mem_map, List.mem_singleton] at member
      rcases member with isBody | ⟨generator, _, rfl⟩ | rfl
      · exact inductionHypothesis (Nat.lt_succ_of_lt before) isBody isHead
      · exact absurd bounds.1 (Nat.not_succ_le_self _)
      · exact absurd before (Nat.not_lt_of_le (Nat.le_of_succ_le bounds.1))
  | transpose dials body inductionHypothesis =>
      have bounds := (within_heads body (start + 1)).bounds _ isHead
      simp only [wires, List.mem_append, List.mem_map, List.mem_singleton] at member
      rcases member with isBody | ⟨generator, _, rfl⟩ | rfl
      · exact inductionHypothesis (Nat.lt_succ_self start) isBody isHead
      · exact absurd bounds.1 (Nat.not_succ_le_self _)
      · exact absurd before (Nat.not_lt_of_le (Nat.le_of_succ_le bounds.1))
  | generator unit =>
      obtain rfl := List.mem_singleton.mp member
      rfl
  | omitted =>
      cases member
  | filter mode dials body _ =>
      have isFilter : patch.source.module = start := List.mem_singleton.mp isHead
      rcases List.mem_append.mp member with isBody | isOwn
      · rcases wires_source isBody with isPitch | inside
        · rw [isPitch] at isFilter
          exact absurd isFilter (Nat.ne_of_lt before)
        · rw [isFilter] at inside
          exact absurd inside.1 (Nat.not_succ_le_self _)
      · obtain rfl := List.mem_singleton.mp isOwn
        rfl

end LeadingTo

/-- A definition is placed in a graph, with its modules numbered from `start`. -/
structure Placed
    (graph : Draft)
    (frequency consumer start : Nat)
    (definition : Definition) :
    Prop where
  frequency_lt : frequency < start
  consumer_lt : consumer < start
  unit_at {place : Nat} {unit : InstrumentUnit} :
    definition.units[place]? = some unit → graph.unit? (start + place) = some unit
  /-- Apart from places, the patches into the definition are its own. -/
  into {endpoint : Endpoint} :
    Inside start definition endpoint.module →
      endpoint.socket ≠ "PAN" →
        leadingTo endpoint graph.patches =
          leadingTo endpoint (definition.wiring frequency consumer start)
  /-- The patches that leave modules of the definition are its own. -/
  leaves {patch : Patch} :
    patch ∈ graph.patches →
      Inside start definition patch.source.module →
        patch ∈ definition.wires frequency consumer start

namespace Placed

variable {graph : Draft} {frequency consumer start : Nat}

theorem first
    {first : Definition}
    {rest : List Definition}
    (placed : Placed graph frequency consumer start (.combined (first :: rest))) :
    Placed graph frequency consumer start first where
  frequency_lt := placed.frequency_lt
  consumer_lt := placed.consumer_lt
  unit_at {place unit} atPlace := by
    obtain ⟨inside, _⟩ := List.getElem?_eq_some_iff.mp atPlace
    apply placed.unit_at
    rw [units, unitsAll, List.getElem?_append_left inside, atPlace]
  into {endpoint} inside notPlace := by
    have notRest : ¬ Inside (start + first.units.length) (.combined rest) endpoint.module :=
      fun later => Nat.not_le_of_lt inside.2 later.1
    have notConsumer : endpoint ≠ ⟨consumer, "IN"⟩ := by
      rintro rfl
      exact Nat.not_le_of_lt placed.consumer_lt inside.1
    have restWires :
        leadingTo endpoint (wiresAll frequency consumer (start + first.units.length) rest) = [] :=
      leadingTo_wires_outside notRest notConsumer
    have restPitches :
        leadingTo endpoint
          ((unpitchedAll (start + first.units.length) rest).map (.pitch frequency)) = [] :=
      leadingTo_pitches_outside notRest
    rw [placed.into inside.of_first notPlace]
    simp only [wiring, wires, wiresAll, unpitched, unpitchedAll, List.map_append,
      leadingTo_append, restWires, restPitches, List.append_nil]
  leaves {patch} member inside := by
    rcases List.mem_append.mp (placed.leaves member inside.of_first) with isFirst | isRest
    · exact isFirst
    · have inRest :
          patch ∈ (Definition.combined rest).wires frequency consumer
            (start + first.units.length) := isRest
      rcases wires_source inRest with isPitch | later
      · rw [isPitch] at inside
        exact absurd placed.frequency_lt (Nat.not_lt_of_le inside.1)
      · exact absurd inside.2 (Nat.not_lt_of_le later.1)

theorem rest
    {first : Definition}
    {rest : List Definition}
    (placed : Placed graph frequency consumer start (.combined (first :: rest))) :
    Placed graph frequency consumer (start + first.units.length) (.combined rest) where
  frequency_lt := Nat.lt_add_right _ placed.frequency_lt
  consumer_lt := Nat.lt_add_right _ placed.consumer_lt
  unit_at {place unit} atPlace := by
    rw [Nat.add_assoc]
    apply placed.unit_at
    rw [units, unitsAll, List.getElem?_append_right (Nat.le_add_right _ _),
      Nat.add_sub_cancel_left]
    exact atPlace
  into {endpoint} inside notPlace := by
    have notFirst : ¬ Inside start first endpoint.module :=
      fun before => Nat.not_le_of_lt before.2 inside.1
    have notConsumer : endpoint ≠ ⟨consumer, "IN"⟩ := by
      rintro rfl
      exact Nat.not_le_of_lt placed.consumer_lt (Nat.le_trans (Nat.le_add_right _ _) inside.1)
    have firstWires : leadingTo endpoint (first.wires frequency consumer start) = [] :=
      leadingTo_wires_outside notFirst notConsumer
    have firstPitches :
        leadingTo endpoint ((first.unpitched start).map (.pitch frequency)) = [] :=
      leadingTo_pitches_outside notFirst
    rw [placed.into inside.of_rest notPlace]
    simp only [wiring, wires, wiresAll, unpitched, unpitchedAll, List.map_append,
      leadingTo_append, firstWires, firstPitches, List.nil_append]
  leaves {patch} member inside := by
    rcases List.mem_append.mp (placed.leaves member inside.of_rest) with isFirst | isRest
    · rcases wires_source isFirst with isPitch | before
      · rw [isPitch] at inside
        exact absurd (Nat.lt_add_right first.units.length placed.frequency_lt)
          (Nat.not_lt_of_le inside.1)
      · exact absurd before.2 (Nat.not_lt_of_le inside.1)
    · exact isRest

theorem unit?_start
    {definition : Definition}
    {unit : InstrumentUnit}
    {others : List InstrumentUnit}
    (placed : Placed graph frequency consumer start definition)
    (outerUnits : definition.units = unit :: others) :
    graph.unit? start = some unit := by
  have isFirst : definition.units[0]? = some unit := by
    rw [outerUnits]
    rfl
  exact placed.unit_at isFirst

theorem panning_body
    {body : Definition}
    (placed : Placed graph frequency consumer start (.panning body)) :
    Placed graph frequency consumer (start + 1) body where
  frequency_lt := Nat.lt_succ_of_lt placed.frequency_lt
  consumer_lt := Nat.lt_succ_of_lt placed.consumer_lt
  unit_at {place unit} atPlace := by
    rw [Nat.add_assoc, Nat.add_comm 1]
    exact placed.unit_at atPlace
  into {endpoint} inside notPlace := by
    have others :
        leadingTo endpoint
          ((body.sources (start + 1)).map (.place start) ++ [.pitch frequency start]) = [] := by
      apply leadingTo_eq_nil
      intro patch member isTarget
      simp only [List.mem_append, List.mem_map, List.mem_singleton] at member
      rcases member with ⟨generator, _, rfl⟩ | rfl
      · exact notPlace (congrArg Endpoint.socket isTarget).symm
      · rw [← isTarget] at inside
        exact Nat.not_succ_le_self _ inside.1
    rw [placed.into (inside.of_body rfl) notPlace]
    simp only [wiring, wires, unpitched, leadingTo_append] at others ⊢
    rw [others, List.append_nil]
  leaves {patch} member inside := by
    have isOwn := placed.leaves member (inside.of_body rfl)
    simp only [wires, List.mem_append, List.mem_map, List.mem_singleton] at isOwn
    rcases isOwn with isBody | ⟨generator, _, rfl⟩ | rfl
    · exact isBody
    · exact absurd inside.1 (Nat.not_succ_le_self _)
    · exact absurd placed.frequency_lt (Nat.not_lt_of_le (Nat.le_of_succ_le inside.1))

theorem transpose_body
    {dials : Dials}
    {body : Definition}
    (placed : Placed graph frequency consumer start (.transpose dials body)) :
    Placed graph start consumer (start + 1) body where
  frequency_lt := Nat.lt_succ_self start
  consumer_lt := Nat.lt_succ_of_lt placed.consumer_lt
  unit_at {place unit} atPlace := by
    rw [Nat.add_assoc, Nat.add_comm 1]
    exact placed.unit_at atPlace
  into {endpoint} inside notPlace := by
    have others : leadingTo endpoint [.shift frequency start] = [] := by
      apply leadingTo_eq_nil
      intro patch member isTarget
      obtain rfl := List.mem_singleton.mp member
      rw [← isTarget] at inside
      exact Nat.not_succ_le_self _ inside.1
    rw [placed.into (inside.of_body rfl) notPlace]
    simp only [wiring, wires, unpitched, leadingTo_append, List.map_nil, List.append_nil, others]
  leaves {patch} member inside := by
    have isOwn := placed.leaves member (inside.of_body rfl)
    simp only [wires, List.mem_append, List.mem_map, List.mem_singleton] at isOwn
    rcases isOwn with isBody | ⟨generator, _, rfl⟩ | rfl
    · exact isBody
    · exact absurd inside.1 (Nat.not_succ_le_self _)
    · exact absurd placed.frequency_lt (Nat.not_lt_of_le (Nat.le_of_succ_le inside.1))

theorem filter_body
    {mode : FilterMode}
    {dials : Dials}
    {body : Definition}
    (placed : Placed graph frequency consumer start (.filter mode dials body)) :
    Placed graph frequency start (start + 1) body where
  frequency_lt := Nat.lt_succ_of_lt placed.frequency_lt
  consumer_lt := Nat.lt_succ_self start
  unit_at {place unit} atPlace := by
    rw [Nat.add_assoc, Nat.add_comm 1]
    exact placed.unit_at atPlace
  into {endpoint} inside notPlace := by
    have others : leadingTo endpoint [.audio start consumer] = [] := by
      apply leadingTo_eq_nil
      intro patch member isTarget
      obtain rfl := List.mem_singleton.mp member
      rw [← isTarget] at inside
      exact absurd placed.consumer_lt (Nat.not_lt_of_le (Nat.le_of_succ_le inside.1))
    rw [placed.into (inside.of_body rfl) notPlace]
    simp only [wiring, wires, unpitched, leadingTo_append, others, List.append_nil]
  leaves {patch} member inside := by
    rcases List.mem_append.mp (placed.leaves member (inside.of_body rfl)) with isBody | isOwn
    · exact isBody
    · obtain rfl := List.mem_singleton.mp isOwn
      exact absurd inside.1 (Nat.not_succ_le_self _)

/-- The only pitch of a sound source. -/
theorem into_generator
    {unit : InstrumentUnit}
    (placed : Placed graph frequency consumer start (.generator unit)) :
    leadingTo ⟨start, "FREQ"⟩ graph.patches = [.pitch frequency start] := by
  rw [placed.into (Inside.head rfl) (by simp)]
  simp [wiring, wires, unpitched, leadingTo, Patch.audio, Patch.pitch]

/-- The only pitch of a transpose. -/
theorem into_transpose
    {dials : Dials}
    {body : Definition}
    (placed : Placed graph frequency consumer start (.transpose dials body)) :
    leadingTo ⟨start, "FREQ IN"⟩ graph.patches = [.shift frequency start] := by
  have outside : ¬ Inside (start + 1) body start :=
    fun inside => Nat.not_succ_le_self _ inside.1
  have bodyWires :
      leadingTo ⟨start, "FREQ IN"⟩ (body.wires start consumer (start + 1)) = [] :=
    leadingTo_wires_outside outside (by simp)
  have bodyPitches :
      leadingTo ⟨start, "FREQ IN"⟩ ((body.unpitched (start + 1)).map (.pitch start)) = [] :=
    leadingTo_pitches_outside outside
  rw [placed.into (Inside.head rfl) (by simp)]
  simp only [wiring, wires, unpitched, leadingTo_append, bodyWires, bodyPitches, List.map_nil,
    List.append_nil, List.nil_append]
  simp [leadingTo, Patch.shift]

/-- The audio of a filter comes from the heads of its body, in order. -/
theorem into_filter
    {mode : FilterMode}
    {dials : Dials}
    {body : Definition}
    (placed : Placed graph frequency consumer start (.filter mode dials body)) :
    leadingTo ⟨start, "IN"⟩ graph.patches =
      (body.heads (start + 1)).map (Patch.audio · start) := by
  have pitches :
      leadingTo ⟨start, "IN"⟩ ((body.unpitched (start + 1)).map (.pitch frequency)) = [] :=
    leadingTo_pitches_outside fun inside => Nat.not_succ_le_self _ inside.1
  have own : leadingTo ⟨start, "IN"⟩ [.audio start consumer] = [] := by
    apply leadingTo_eq_nil
    intro patch member isTarget
    obtain rfl := List.mem_singleton.mp member
    exact Nat.ne_of_lt placed.consumer_lt (congrArg Endpoint.module isTarget)
  rw [placed.into (Inside.head rfl) (by simp)]
  simp only [wiring, wires, unpitched, leadingTo_append,
    leadingTo_consumer body (Nat.lt_succ_self start), own, pitches, List.append_nil]

/-- What a head of the definition feeds is where the audio of the definition goes. -/
theorem feeds_of_head
    {definition : Definition}
    (placed : Placed graph frequency consumer start definition)
    {head other : ModuleId}
    (isHead : head ∈ definition.heads start)
    (feeds : graph.Feeds head other) :
    other = consumer := by
  obtain ⟨patch, member, rfl, rfl⟩ := feeds
  have inside := (within_heads definition start).bounds _ isHead
  have isOwn := placed.leaves member inside
  rw [target_of_head definition placed.frequency_lt isOwn isHead]

end Placed

theorem loaded_patches
    (definition : Definition) :
    definition.loaded.patches =
      definition.wiring Instrument.inputId Instrument.outputId 2 :=
  rfl

/-- A loaded definition is placed between the input and the output. -/
theorem placed_loaded
    (definition : Definition) :
    Placed definition.loaded Instrument.inputId Instrument.outputId 2 definition where
  frequency_lt := by decide
  consumer_lt := by decide
  unit_at {place unit} atPlace := by
    have found :=
      ready_new.numbered.unit?_grow definition.units
        (definition.wiring Instrument.inputId Instrument.outputId 2) (2 + place)
    have notOld : ¬ 2 + place < Instrument.new.graph.nextId :=
      Nat.not_lt.mpr (Nat.le_add_right _ _)
    rw [if_neg notOld] at found
    refine found.trans ?_
    rw [← atPlace]
    exact congrArg (definition.units[·]?) (Nat.add_sub_cancel_left 2 place)
  into _ _ := rfl
  leaves {patch} member inside := by
    rw [loaded_patches] at member
    rcases List.mem_append.mp member with isOwn | isPitch
    · exact isOwn
    · obtain ⟨generator, _, rfl⟩ := List.mem_map.mp isPitch
      exact absurd inside.1 (Nat.not_succ_le_zero 1)

/-- The output of a loaded definition is fed by its heads, in order. -/
theorem leadingTo_output
    (definition : Definition) :
    leadingTo ⟨Instrument.outputId, "IN"⟩ definition.loaded.patches =
      (definition.heads 2).map (Patch.audio · Instrument.outputId) := by
  have pitches :
      leadingTo ⟨Instrument.outputId, "IN"⟩
        ((definition.unpitched 2).map (.pitch Instrument.inputId)) = [] :=
    leadingTo_pitches_outside fun inside => Nat.not_succ_le_self 1 inside.1
  rw [loaded_patches, wiring, leadingTo_append, pitches, List.append_nil]
  exact leadingTo_consumer definition (by decide)

section Acyclic

/-- Audio leads to smaller numbers, and pitches and places lead to greater ones. -/
def Directed (patch : Patch) : Prop :=
  if patch.signal = .audio then
    patch.target.module < patch.source.module
  else
    patch.source.module < patch.target.module

theorem directed_wires
    (definition : Definition)
    {frequency consumer start : Nat}
    (frequencyBefore : frequency < start)
    (consumerBefore : consumer < start) :
    ∀ patch ∈ definition.wires frequency consumer start, Directed patch := by
  induction definition generalizing frequency consumer start with
  | silence =>
      intro patch member
      cases member
  | combined first rest firstHypothesis restHypothesis =>
      intro patch member
      rcases List.mem_append.mp member with isFirst | isRest
      · exact firstHypothesis frequencyBefore consumerBefore patch isFirst
      · exact restHypothesis (Nat.lt_add_right _ frequencyBefore)
          (Nat.lt_add_right _ consumerBefore) patch isRest
  | panning body inductionHypothesis =>
      intro patch member
      simp only [wires, List.mem_append, List.mem_map, List.mem_singleton] at member
      rcases member with isBody | ⟨generator, isSource, rfl⟩ | rfl
      · exact inductionHypothesis (Nat.lt_succ_of_lt frequencyBefore)
          (Nat.lt_succ_of_lt consumerBefore) patch isBody
      · exact ((within_sources body (start + 1)).bounds generator isSource).1
      · exact frequencyBefore
  | transpose dials body inductionHypothesis =>
      intro patch member
      simp only [wires, List.mem_append, List.mem_map, List.mem_singleton] at member
      rcases member with isBody | ⟨generator, isUnpitched, rfl⟩ | rfl
      · exact inductionHypothesis (Nat.lt_succ_self start)
          (Nat.lt_succ_of_lt consumerBefore) patch isBody
      · exact ((within_unpitched body (start + 1)).bounds generator isUnpitched).1
      · exact frequencyBefore
  | generator unit =>
      intro patch member
      obtain rfl := List.mem_singleton.mp member
      exact consumerBefore
  | omitted =>
      intro patch member
      cases member
  | filter mode dials body inductionHypothesis =>
      intro patch member
      rcases List.mem_append.mp member with isBody | isOwn
      · exact inductionHypothesis (Nat.lt_succ_of_lt frequencyBefore)
          (Nat.lt_succ_self start) patch isBody
      · obtain rfl := List.mem_singleton.mp isOwn
        exact consumerBefore

theorem directed_loaded
    (definition : Definition) :
    ∀ patch ∈ definition.loaded.patches, Directed patch := by
  intro patch member
  rw [loaded_patches] at member
  rcases List.mem_append.mp member with isOwn | isPitch
  · exact directed_wires definition (by decide) (by decide) patch isOwn
  · obtain ⟨generator, isUnpitched, rfl⟩ := List.mem_map.mp isPitch
    have bounds := (within_unpitched definition 2).bounds generator isUnpitched
    exact Nat.lt_of_lt_of_le (Nat.zero_lt_succ 1) bounds.1

/-- Whether audio passes a unit. -/
def carriesAudio : InstrumentUnit → Bool
  | .output => true
  | .generator _ _ => true
  | .wav _ _ => true
  | .filter _ _ => true
  | _ => false

theorem carriesAudio_of_output
    {unit : InstrumentUnit}
    {name : String}
    {signal : Signal}
    (isSocket : UnitLike.socket? unit name = some ⟨name, .output, signal⟩) :
    carriesAudio unit = decide (signal = .audio) := by
  have member := (UnitLike.socket?_some isSocket).1
  cases unit <;>
    simp_all [carriesAudio, UnitLike.sockets, InstrumentUnit.sockets, Generator.sockets,
      Filter.sockets, Transpose.sockets, Panning.sockets, Socket.input, Socket.output]

theorem carriesAudio_of_input
    {unit : InstrumentUnit}
    {name : String}
    (isSocket : UnitLike.socket? unit name = some ⟨name, .input, .audio⟩) :
    carriesAudio unit = true := by
  have member := (UnitLike.socket?_some isSocket).1
  cases unit <;>
    simp_all [carriesAudio, UnitLike.sockets, InstrumentUnit.sockets, Generator.sockets,
      Filter.sockets, Transpose.sockets, Panning.sockets, Socket.input, Socket.output]

/-- Modules that audio passes are higher than the others, in reverse order of their numbers. -/
def height (graph : Draft) (id : Nat) : Nat :=
  if (graph.unit? id).any carriesAudio then 2 * graph.nextId - id else id

/-- If audio leads to smaller numbers and the rest to greater ones, nothing feeds itself. -/
theorem wellFounded_of_directed
    {graph : Draft}
    (wellPatched : graph.WellPatched)
    (numbered : graph.Numbered)
    (directed : ∀ patch ∈ graph.patches, Directed patch) :
    WellFounded graph.Feeds := by
  apply Graph.wellFounded_feeds (height graph)
  intro patch member
  obtain ⟨sourceUnit, sourceFound, isSource⟩ := wellPatched.source_output patch member
  obtain ⟨targetUnit, targetFound, isTarget⟩ := wellPatched.target_input patch member
  have sourceBelow : patch.source.module < graph.nextId := numbered.lt_nextId sourceFound
  have targetBelow : patch.target.module < graph.nextId := numbered.lt_nextId targetFound
  have direction := directed patch member
  simp only [height, sourceFound, targetFound, Option.any_some, carriesAudio_of_output isSource,
    decide_eq_true_eq]
  unfold Directed at direction
  generalize patch.source.module = source at *
  generalize patch.target.module = target at *
  split at direction
  · rename_i isAudio
    rw [isAudio] at isTarget
    rw [if_pos isAudio, if_pos (carriesAudio_of_input isTarget)]
    exact Nat.sub_lt_sub_left (Nat.lt_of_lt_of_le targetBelow (Nat.le_mul_of_pos_left _ two_pos))
      direction
  · rename_i notAudio
    rw [if_neg notAudio]
    split
    · exact Nat.lt_sub_of_add_lt (by rw [Nat.two_mul]; exact Nat.add_lt_add sourceBelow targetBelow)
    · exact direction

end Acyclic

end SynthGraph.Definition
