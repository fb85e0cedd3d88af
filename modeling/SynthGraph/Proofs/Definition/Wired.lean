import SynthGraph.Proofs.Definition.Nodes
import SynthGraph.Proofs.GraphFile.Editing
import SynthGraph.Proofs.Graph.Producers

namespace SynthGraph

/-!
# The wiring of a loaded document

A document is loaded into a graph of the input, the output and its own modules
(`Document.nodes`).  Which patches end at a socket of a module follows from what
stands around the module (`Instrument.wired_ofDocument`), each call on the way
makes one of these patches and none is taken away again, and no module feeds
itself.
-/

namespace Definition

/-- A patch that leads to no audio input leads to the module that it belongs to. -/
theorem Node.target_of_mem_patches
    {node : Node}
    {patch : Patch}
    (member : patch ∈ node.patches)
    (notAudio : patch.target.socket ≠ "IN") :
    patch.target.module = node.module.id := by
  obtain ⟨⟨id, position, unit⟩, around⟩ := node
  cases unit <;>
    simp only [Node.patches, List.mem_cons, List.mem_map, List.not_mem_nil, or_false] at member
  case generator | wav =>
    rcases member with rfl | rfl | ⟨panning, _, rfl⟩
    · exact absurd rfl notAudio
    · rfl
    · rfl
  case filter =>
    subst member
    exact absurd rfl notAudio
  case transpose | panning =>
    subst member
    rfl

/-- A patch at an audio output leads on the audio of the module that it belongs to. -/
theorem Node.eq_of_touches_outlet
    {node : Node}
    {patch : Patch}
    (member : patch ∈ node.patches)
    {id : ModuleId}
    (touches : patch.touches ⟨id, "OUT"⟩) :
    node.module.id = id := by
  obtain ⟨⟨own, position, unit⟩, around⟩ := node
  cases unit <;>
    simp only [Node.patches, List.mem_cons, List.mem_map, List.not_mem_nil, or_false] at member
  case generator | wav =>
    rcases member with rfl | rfl | ⟨panning, _, rfl⟩ <;>
      simp_all [Patch.audio, Patch.pitch, Patch.place, Patch.touches]
  case filter =>
    subst member
    simpa [Patch.audio, Patch.touches] using touches
  case transpose | panning =>
    subst member
    simp [Patch.shift, Patch.pitch, Patch.touches] at touches

/-- If all wanted patches belong to one of several modules, they are found there. -/
theorem filter_patches_of_own
    {nodes : List Node}
    (idsNodup : (nodes.map (·.module.id)).Nodup)
    {node : Node}
    (isNode : node ∈ nodes)
    {wanted : Patch → Bool}
    (own :
      ∀ other ∈ nodes, ∀ patch ∈ other.patches, wanted patch →
        other.module.id = node.module.id) :
    (nodes.flatMap Node.patches).filter wanted = node.patches.filter wanted := by
  induction nodes with
  | nil =>
      cases isNode
  | cons first rest inductionHypothesis =>
      rw [List.map_cons, List.nodup_cons] at idsNodup
      rw [List.forall_mem_cons] at own
      rw [List.flatMap_cons, List.filter_append]
      rcases List.mem_cons.mp isNode with rfl | inRest
      · have noneLater : (rest.flatMap Node.patches).filter wanted = [] := by
          rw [List.filter_eq_nil_iff]
          intro patch isPatch isWanted
          obtain ⟨other, isOther, ofOther⟩ := List.mem_flatMap.mp isPatch
          have sameId := own.2 other isOther patch ofOther isWanted
          exact idsNodup.1 (List.mem_map.mpr ⟨other, isOther, sameId⟩)
        rw [noneLater, List.append_nil]
      · have noneFirst : first.patches.filter wanted = [] := by
          rw [List.filter_eq_nil_iff]
          intro patch isPatch isWanted
          have sameId := own.1 patch isPatch isWanted
          exact idsNodup.1 (List.mem_map.mpr ⟨node, inRest, sameId.symm⟩)
        rw [noneFirst, List.nil_append]
        exact inductionHypothesis idsNodup.2 inRest own.2

section Loaded

variable {definition : Definition}

/-- The modules of a loaded definition are the input, the output and its own. -/
theorem modules_loaded
    (definition : Definition) :
    definition.loaded.modules =
      Instrument.new.graph.modules ++ (definition.nodes [] 2).map Node.module := by
  rw [map_module_nodes]
  rfl

theorem Sound.patches_loaded
    (sound : definition.Sound) :
    definition.loaded.patches.Perm ((definition.nodes [] 2).flatMap Node.patches) := by
  have perm := sound.wiring_perm [] 2
  have noPlaces : definition.placing (panningsIn []) 2 = [] :=
    List.flatMap_eq_nil_iff.mpr fun _ _ => rfl
  rw [noPlaces, List.append_nil] at perm
  exact perm

variable (sound : definition.Sound) {node : Node} (isNode : node ∈ definition.nodes [] 2)

include sound isNode

/-- The patches that are wanted of a loaded definition, if they belong to one module. -/
theorem Sound.filter_patches_loaded
    {wanted : Patch → Bool}
    (own :
      ∀ other ∈ definition.nodes [] 2, ∀ patch ∈ other.patches, wanted patch →
        other.module.id = node.module.id) :
    (definition.loaded.patches.filter wanted).Perm (node.patches.filter wanted) := by
  have numbered := sound.storable_loaded.numbered
  have idsNodup : ((definition.nodes [] 2).map (·.module.id)).Nodup := by
    have increasing := numbered.increasing
    rw [modules_loaded, List.pairwise_append] at increasing
    exact List.pairwise_map.mpr
      ((List.pairwise_map.mp increasing.2.1).imp Nat.ne_of_lt)
  rw [← filter_patches_of_own idsNodup isNode own]
  exact sound.patches_loaded.filter wanted

/-- The patches at an input of a module are those that belong to the module and lead there. -/
theorem Sound.patchesAt_input
    {name : String}
    {signal : Signal}
    (isSocket : UnitLike.socket? node.module.unit name = some ⟨name, .input, signal⟩)
    (notAudio : name ≠ "IN") :
    (definition.loaded.patchesAt ⟨node.module.id, name⟩).Perm
      (node.patches.filter (·.target = ⟨node.module.id, name⟩)) := by
  have storable := sound.storable_loaded
  have isModule : node.module ∈ definition.loaded.modules := by
    rw [modules_loaded]
    exact List.mem_append_right _ (List.mem_map_of_mem isNode)
  have isInput : definition.loaded.HasSocket ⟨node.module.id, name⟩ .input signal :=
    ⟨node.module.unit, storable.numbered.unit?_of_mem isModule, isSocket⟩
  rw [Graph.patchesAt_of_input storable.wellPatched isInput]
  apply sound.filter_patches_loaded isNode
  intro other _ patch isPatch isTarget
  rw [decide_eq_true_eq] at isTarget
  rw [← Node.target_of_mem_patches isPatch (by rwa [isTarget]), isTarget]

/-- The audio of sound sources and filters goes to one place. -/
theorem Sound.patchesAt_outlet
    (sounds : node.module.unit.isGenerator || node.module.unit.isFilter) :
    definition.loaded.patchesAt ⟨node.module.id, "OUT"⟩ =
      [.audio node.module.id (consumerIn node.around)] := by
  rw [← List.perm_singleton]
  refine (sound.filter_patches_loaded isNode fun other _ patch isPatch =>
    Node.eq_of_touches_outlet isPatch).trans ?_
  obtain ⟨⟨id, position, unit⟩, around⟩ := node
  cases unit <;> cases sounds <;>
    simp [Node.patches, Patch.audio, Patch.pitch, Patch.place, Patch.touches, List.filter_map,
      Function.comp_def]

/-- Sound sources and pannings have one pitch. -/
theorem Sound.patchesAt_pitch
    (pitched : node.module.unit.isGenerator || node.module.unit.isPanning) :
    definition.loaded.patchesAt ⟨node.module.id, "FREQ"⟩ =
      [.pitch (frequencyIn node.around) node.module.id] := by
  rw [← List.perm_singleton]
  have isSocket :
      UnitLike.socket? node.module.unit "FREQ" = some ⟨"FREQ", .input, .frequency⟩ := by
    cases unit : node.module.unit <;> rw [unit] at pitched <;> first | rfl | cases pitched
  refine (sound.patchesAt_input isNode isSocket (by decide)).trans ?_
  obtain ⟨⟨id, position, unit⟩, around⟩ := node
  cases unit <;> cases pitched <;>
    simp [Node.patches, Patch.audio, Patch.pitch, Patch.place, List.filter_map,
      Function.comp_def]

/-- Transposes shift one pitch. -/
theorem Sound.patchesAt_shift
    (shifts : node.module.unit.isTranspose) :
    definition.loaded.patchesAt ⟨node.module.id, "FREQ IN"⟩ =
      [.shift (frequencyIn node.around) node.module.id] := by
  rw [← List.perm_singleton]
  have isSocket :
      UnitLike.socket? node.module.unit "FREQ IN" = some ⟨"FREQ IN", .input, .frequency⟩ := by
    cases unit : node.module.unit <;> rw [unit] at shifts <;> first | rfl | cases shifts
  refine (sound.patchesAt_input isNode isSocket (by decide)).trans ?_
  obtain ⟨⟨id, position, unit⟩, around⟩ := node
  cases unit <;> cases shifts
  simp [Node.patches, Patch.shift]

/-- Sound sources are placed by all pannings around them. -/
theorem Sound.patchesAt_place
    (isGenerator : node.module.unit.isGenerator) :
    (definition.loaded.patchesAt ⟨node.module.id, "PAN"⟩).Perm
      ((panningsIn node.around).map (.place · node.module.id)) := by
  have isSocket :
      UnitLike.socket? node.module.unit "PAN" = some ⟨"PAN", .input, .panning⟩ :=
    InstrumentUnit.socket?_of_isGenerator isGenerator "PAN"
  refine (sound.patchesAt_input isNode isSocket (by decide)).trans ?_
  obtain ⟨⟨id, position, unit⟩, around⟩ := node
  cases unit <;> cases isGenerator <;>
    simp [Node.patches, Patch.audio, Patch.pitch, Patch.place, List.filter_map,
      Function.comp_def]

end Loaded

end Definition

namespace Instrument

open Definition

/-- A graph has the modules of a document, and its patches follow from where they stand. -/
structure Wired (document : Document) (graph : Draft) : Prop where
  /-- The input, the output, and the modules of the document, each before those inside it. -/
  modules :
    graph.modules =
      ⟨inputId, ⟨10, 40⟩, .input⟩ :: ⟨outputId, ⟨700, 40⟩, .output⟩
        :: (document.nodes [] 2).map Node.module
  /-- There are no other patches than those of the modules. -/
  patches : graph.patches.Perm ((document.nodes [] 2).flatMap Node.patches)
  /-- Audio goes to the innermost filter around, or else to the output. -/
  outlet :
    ∀ node ∈ document.nodes [] 2, node.module.unit.isGenerator || node.module.unit.isFilter →
      graph.patchesAt ⟨node.module.id, "OUT"⟩ =
        [.audio node.module.id (consumerIn node.around)]
  /-- Pitch derives from the innermost transpose around, or else from the input. -/
  pitch :
    ∀ node ∈ document.nodes [] 2, node.module.unit.isGenerator || node.module.unit.isPanning →
      graph.patchesAt ⟨node.module.id, "FREQ"⟩ =
        [.pitch (frequencyIn node.around) node.module.id]
  shift :
    ∀ node ∈ document.nodes [] 2, node.module.unit.isTranspose →
      graph.patchesAt ⟨node.module.id, "FREQ IN"⟩ =
        [.shift (frequencyIn node.around) node.module.id]
  /-- All pannings around place a sound source, each of them once. -/
  place :
    ∀ node ∈ document.nodes [] 2, node.module.unit.isGenerator →
      (panningsIn node.around).Nodup ∧
        (graph.patchesAt ⟨node.module.id, "PAN"⟩).Perm
          ((panningsIn node.around).map (.place · node.module.id))
  /-- No module feeds itself, however far around. -/
  acyclic : ∀ id, ¬ Relation.TransGen graph.Feeds id id

/-- A document that spells a definition is wired when the definition is loaded. -/
theorem wired_loaded
    {document : Document}
    {definition : Definition}
    (accepted : Definition.ofDocument document = .ok definition) :
    Wired document definition.loaded := by
  have sound := (rewrites_ofDocument document accepted).sound
  have storable := sound.storable_loaded
  have sameNodes := nodes_of_ofDocument accepted [] 2
  have noneAround : Encloses [] 2 := ⟨.nil, nofun⟩
  have wellFounded :=
    wellFounded_of_directed storable.wellPatched storable.numbered (directed_loaded definition)
  constructor
  case modules =>
    rw [sameNodes]
    exact modules_loaded definition
  case patches =>
    rw [sameNodes]
    exact sound.patches_loaded
  case acyclic =>
    exact fun id cycle => wellFounded.transGen.asymmetric id id cycle cycle
  all_goals
    intro node isNode
    rw [sameNodes] at isNode
  case outlet =>
    exact sound.patchesAt_outlet isNode
  case pitch =>
    exact sound.patchesAt_pitch isNode
  case shift =>
    exact sound.patchesAt_shift isNode
  case place =>
    exact fun isGenerator =>
      ⟨(encloses_of_mem_nodes noneAround isNode).nodup_panningsIn,
        sound.patchesAt_place isNode isGenerator⟩

/--
Loading a document wires its modules: every call on the way connects two sockets
and takes no patch away, and the patches are those that the calls made.
-/
theorem wired_ofDocument
    {document : Document}
    {instrument : Instrument}
    (accepted : Instrument.ofDocument document = .ok instrument) :
    Wired document instrument.graph ∧
      ∃ definition journal,
        Definition.ofDocument document = .ok definition ∧
          definition.toJournal = .ok journal ∧
            journal.draft = instrument.graph ∧
              journal.calls = instrument.graph.patches.map Call.made ∧
                ∀ call ∈ journal.calls, call.change = .connected := by
  obtain ⟨definition, isDefinition, _⟩ := bind_eq_ok_iff.mp accepted
  have sound := (rewrites_ofDocument document isDefinition).sound
  rw [ofDocument_eq isDefinition] at accepted
  cases accepted
  have wired := wired_loaded isDefinition
  refine ⟨wired, definition, _, isDefinition, sound.toJournal_eq.1, rfl, rfl, ?_⟩
  intro call isCall
  obtain ⟨patch, _, rfl⟩ := List.mem_map.mp isCall
  rfl

/-- A panning around a transposed saw and a filtered sine. -/
theorem wired_ofDocument_panned :
    let saw : Document := .object [("semitones", .integer 7), ("saw", .object [])]
    let sine : Document := .object [("lpf", .object []), ("sine", .object [])]
    let both : Document :=
      .object [("combined", .list [.object [("transpose", saw)], .object [("filter", sine)]])]
    let document : Document := .object [("panning", both)]
    (document.nodes [] 2).map
          (fun node =>
            (node.module.id, consumerIn node.around, frequencyIn node.around,
              panningsIn node.around)) =
        [(2, 1, 0, []), (3, 1, 0, [2]), (4, 1, 3, [2]), (5, 1, 0, [2]), (6, 5, 0, [2])] ∧
      ∃ instrument,
        Instrument.ofDocument document = .ok instrument ∧ Wired document instrument.graph := by
  intro saw sine both document
  constructor
  · simp [document, both, saw, sine, Document.nodes_eq, Document.form?_eq, Document.nodesAll,
      Document.sourceKeys, Document.present?, Document.field?, Entries.get?, Document.nonNull?,
      generator?, Sample.kind, waveformKeys, readGenerator, filter?, modesByKey, FilterMode.key,
      FilterMode.kind, consumerIn, frequencyIn, panningsIn, nearest, InstrumentUnit.isFilter,
      InstrumentUnit.isPanning, InstrumentUnit.isTranspose, inputId, outputId]
  · have isDefinition : ∃ definition, Definition.ofDocument document = .ok definition := by
      simp [document, both, saw, sine, Definition.ofDocument_eq, ofDocuments, Document.present?,
        Document.field?, Entries.get?, Document.nonNull?, Panning.kind, Transpose.kind, generator?,
        Sample.kind, waveformKeys, filter?, modesByKey, FilterMode.key, FilterMode.kind,
        Functor.map, Except.map, bind, Except.bind, pure, Except.pure]
    obtain ⟨definition, accepted⟩ := isDefinition
    have loaded := ofDocument_eq accepted
    exact ⟨_, loaded, (wired_ofDocument loaded).1⟩

end Instrument

end SynthGraph
