import SynthGraph.Proofs.Definition.Journal

namespace SynthGraph

/-!
# Expanding a definition

Expanding a definition never fails, and every call that connects two sockets on
the way makes a new patch: the graph grows by the units and the patches of the
layout (`Sound.expands`), and the sound sources without a pitch follow the played
note in the end (`Sound.toGraph_eq`).  All this is shown of the journal, so it
says what each call did.
-/

/-- Sound sources have the sockets of generators. -/
theorem InstrumentUnit.socket?_of_isGenerator
    {unit : InstrumentUnit}
    (isGenerator : unit.isGenerator)
    (name : String) :
    UnitLike.socket? unit name = Generator.sockets.find? (·.name = name) := by
  cases unit <;> first | rfl | cases isGenerator

namespace Definition

/-- A graph in which a definition can be placed between two modules. -/
structure Ready (draft : Draft) (frequency consumer : ModuleId) : Prop where
  numbered : draft.Numbered
  wellPatched : draft.WellPatched
  frequency_output : draft.HasSocket ⟨frequency, "FREQ"⟩ .output .frequency
  consumer_input : draft.HasSocket ⟨consumer, "IN"⟩ .input .audio

/-- The graph with the modules and the patches of a definition. -/
def laidOut (definition : Definition) (draft : Draft) (frequency consumer : ModuleId) : Draft :=
  draft.grow definition.units (definition.wires frequency consumer draft.nextId)

/-- The journal with the modules and the patches of a definition. -/
def entered
    (definition : Definition)
    (journal : Journal)
    (frequency consumer : ModuleId) :
    Journal :=
  journal.grow definition.units (definition.wires frequency consumer journal.draft.nextId)

/-- A definition is expanded to its layout wherever it can be placed, patch by patch. -/
structure Expands (definition : Definition) : Prop where
  enter_eq {journal : Journal} {frequency consumer : ModuleId} :
    Ready journal.draft frequency consumer →
      definition.enter frequency consumer journal =
        .ok (definition.sources journal.draft.nextId,
          definition.entered journal frequency consumer)
  wellPatched {journal : Journal} {frequency consumer : ModuleId} :
    Ready journal.draft frequency consumer →
      (definition.entered journal frequency consumer).draft.WellPatched

/-- Both parts of an expansion can be shown at once. -/
theorem Expands.of_ready
    {definition : Definition}
    (expanded :
      ∀ {journal : Journal} {frequency consumer : ModuleId},
        Ready journal.draft frequency consumer →
          definition.enter frequency consumer journal =
              .ok (definition.sources journal.draft.nextId,
                definition.entered journal frequency consumer) ∧
            (definition.entered journal frequency consumer).draft.WellPatched) :
    definition.Expands :=
  ⟨fun ready => (expanded ready).1, fun ready => (expanded ready).2⟩

section Patching

variable {journal : Journal}

/-- A patch between sockets that none joins yet is made, and the graph stays well patched. -/
theorem patch_new
    (wellPatched : journal.draft.WellPatched)
    (patch : Patch)
    (fits : journal.draft.Fits patch)
    (new :
      ∀ other ∈ journal.draft.patches,
        other.source = patch.source → other.target ≠ patch.target) :
    journal.patch patch.source patch.target = .ok (journal.grow [] [patch]) ∧
      (journal.grow [] [patch]).draft.WellPatched := by
  have connected := wellPatched.connect_new fits new
  refine ⟨?_, wellPatched.connect connected⟩
  simp only [Journal.patch, connected]
  rfl

/-- A panning is led to sound sources that have no patch from it. -/
theorem spread_eq
    {panning : ModuleId}
    {generators : List ModuleId}
    (wellPatched : journal.draft.WellPatched)
    (numbered : journal.draft.Numbered)
    (generatorsNodup : generators.Nodup)
    (source : journal.draft.HasSocket ⟨panning, "PAN"⟩ .output .panning)
    (targets :
      ∀ generator ∈ generators, journal.draft.HasSocket ⟨generator, "PAN"⟩ .input .panning)
    (new :
      ∀ generator ∈ generators, ∀ patch ∈ journal.draft.patches,
        patch.source = ⟨panning, "PAN"⟩ → patch.target ≠ ⟨generator, "PAN"⟩) :
    journal.spread panning generators =
        .ok (journal.grow [] (generators.map (.place panning))) ∧
      (journal.grow [] (generators.map (.place panning))).draft.WellPatched := by
  induction generators generalizing journal with
  | nil =>
      simpa [Journal.spread, Journal.grow, Graph.grow, Graph.place, pure, Except.pure]
        using wellPatched
  | cons generator rest inductionHypothesis =>
      rw [List.nodup_cons] at generatorsNodup
      obtain ⟨isPatched, patchedWell⟩ :=
        patch_new wellPatched (.place panning generator)
          ⟨source, targets generator List.mem_cons_self⟩ (new generator List.mem_cons_self)
      have later :=
        inductionHypothesis patchedWell (numbered.grow _ _) generatorsNodup.2
          (source.grow numbered _ _)
          (fun other member => (targets other (List.mem_cons_of_mem _ member)).grow numbered _ _)
          (by
            intro other member patch isPatch isSource isTarget
            rcases List.mem_append.mp isPatch with old | isNew
            · exact new other (List.mem_cons_of_mem _ member) patch old isSource isTarget
            · obtain rfl := List.mem_singleton.mp isNew
              cases isTarget
              exact generatorsNodup.1 member)
      rw [Journal.grow_grow] at later
      refine ⟨?_, later.2⟩
      have first : journal.patch ⟨panning, "PAN"⟩ ⟨generator, "PAN"⟩ = .ok _ := isPatched
      rw [Journal.spread, List.foldlM_cons, first]
      exact later.1

theorem isConnected_grow
    (draft : Draft)
    (endpoint : Endpoint)
    (patches : List Patch) :
    (draft.grow [] patches).isConnected endpoint =
      (draft.isConnected endpoint || patches.any (·.touches endpoint)) := by
  simp [Graph.isConnected, Graph.grow]

/-- The sound sources to which no pitch is led. -/
def untuned (draft : Draft) (generators : List ModuleId) : List ModuleId :=
  generators.filter fun generator => !draft.isConnected ⟨generator, "FREQ"⟩

/-- A pitch is led to the sound sources that have none. -/
theorem tune_eq
    {pitch : ModuleId}
    {generators : List ModuleId}
    (wellPatched : journal.draft.WellPatched)
    (numbered : journal.draft.Numbered)
    (generatorsNodup : generators.Nodup)
    (source : journal.draft.HasSocket ⟨pitch, "FREQ"⟩ .output .frequency)
    (targets :
      ∀ generator ∈ generators, journal.draft.HasSocket ⟨generator, "FREQ"⟩ .input .frequency) :
    journal.tune pitch generators =
        .ok (journal.grow [] ((untuned journal.draft generators).map (.pitch pitch))) ∧
      (journal.grow []
        ((untuned journal.draft generators).map (.pitch pitch))).draft.WellPatched := by
  induction generators generalizing journal with
  | nil =>
      simpa [Journal.tune, Journal.grow, untuned, Graph.grow, Graph.place, pure, Except.pure]
        using wellPatched
  | cons generator rest inductionHypothesis =>
      rw [List.nodup_cons] at generatorsNodup
      have restTargets := fun other member => targets other (List.mem_cons_of_mem generator member)
      cases connected : journal.draft.isConnected ⟨generator, "FREQ"⟩ with
      | true =>
          have later :=
            inductionHypothesis wellPatched numbered generatorsNodup.2 source restTargets
          simpa [Journal.tune, untuned, connected, bind, Except.bind] using later
      | false =>
          have untouched : ∀ patch ∈ journal.draft.patches, patch.target ≠ ⟨generator, "FREQ"⟩ := by
            intro patch member isTarget
            have isFree := List.any_eq_false.mp connected patch member
            simp [Patch.touches, isTarget] at isFree
          obtain ⟨isPatched, patchedWell⟩ :=
            patch_new wellPatched (.pitch pitch generator)
              ⟨source, targets generator List.mem_cons_self⟩
              fun patch member _ => untouched patch member
          have later :=
            inductionHypothesis patchedWell (numbered.grow _ _) generatorsNodup.2
              (source.grow numbered _ _)
              fun other member => (restTargets other member).grow numbered _ _
          -- The new patch leaves the other sound sources as they are.
          have same :
              untuned (journal.draft.grow [] [.pitch pitch generator]) rest =
                untuned journal.draft rest := by
            apply List.filter_congr
            intro other member
            have notGenerator : generator ≠ other := by
              rintro rfl
              exact generatorsNodup.1 member
            have notPitch : pitch ≠ other := by
              rintro rfl
              cases (source.unique (restTargets pitch member)).1
            simp [isConnected_grow, Patch.pitch, Patch.touches, notGenerator, notPitch]
          have first : journal.patch ⟨pitch, "FREQ"⟩ ⟨generator, "FREQ"⟩ = .ok _ := isPatched
          rw [show (journal.grow [] [.pitch pitch generator]).draft =
              journal.draft.grow [] [.pitch pitch generator] from rfl, same,
            Journal.grow_grow] at later
          have kept : untuned journal.draft (generator :: rest) =
              generator :: untuned journal.draft rest := by
            simp [untuned, connected]
          rw [kept, List.map_cons]
          refine ⟨?_, later.2⟩
          rw [Journal.tune, List.foldlM_cons, connected, if_neg Bool.false_ne_true, first]
          exact later.1

end Patching

section Ready

variable {draft : Draft} {frequency consumer : ModuleId}

theorem Ready.add
    (ready : Ready draft frequency consumer)
    (unit : InstrumentUnit) :
    Ready (draft.add unit .origin) frequency consumer := by
  refine ⟨ready.numbered.add unit .origin, ready.wellPatched.add unit .origin, ?_, ?_⟩
  · rw [Graph.add_eq_grow]
    exact ready.frequency_output.grow ready.numbered _ _
  · rw [Graph.add_eq_grow]
    exact ready.consumer_input.grow ready.numbered _ _

theorem Ready.frequency_lt
    (ready : Ready draft frequency consumer) :
    frequency < draft.nextId := by
  obtain ⟨unit, found, _⟩ := ready.frequency_output
  exact ready.numbered.lt_nextId found

theorem Ready.consumer_lt
    (ready : Ready draft frequency consumer) :
    consumer < draft.nextId := by
  obtain ⟨unit, found, _⟩ := ready.consumer_input
  exact ready.numbered.lt_nextId found

theorem Ready.source_lt
    (ready : Ready draft frequency consumer)
    {patch : Patch}
    (member : patch ∈ draft.patches) :
    patch.source.module < draft.nextId := by
  obtain ⟨unit, found, _⟩ := ready.wellPatched.source_output patch member
  exact ready.numbered.lt_nextId found

theorem Ready.target_lt
    (ready : Ready draft frequency consumer)
    {patch : Patch}
    (member : patch ∈ draft.patches) :
    patch.target.module < draft.nextId := by
  obtain ⟨unit, found, _⟩ := ready.wellPatched.target_input patch member
  exact ready.numbered.lt_nextId found

/-- The socket of a module that was just added. -/
theorem Ready.hasSocket_added
    (ready : Ready draft frequency consumer)
    {unit : InstrumentUnit}
    {name : String}
    {direction : Direction}
    {signal : Signal}
    (isSocket : UnitLike.socket? unit name = some ⟨name, direction, signal⟩) :
    (draft.add unit .origin).HasSocket ⟨draft.nextId, name⟩ direction signal := by
  have placed : [unit][0]? = some unit := rfl
  rw [Graph.add_eq_grow]
  exact ready.numbered.hasSocket_new placed isSocket []

/-- The sockets of the sound sources of a definition that was placed. -/
theorem Ready.hasSocket_source
    (ready : Ready draft frequency consumer)
    {definition : Definition}
    (sound : definition.Sound)
    {generator : ModuleId}
    (isSource : generator ∈ definition.sources draft.nextId)
    {name : String}
    {direction : Direction}
    {signal : Signal}
    (isSocket : Generator.sockets.find? (·.name = name) = some ⟨name, direction, signal⟩) :
    (definition.laidOut draft frequency consumer).HasSocket ⟨generator, name⟩ direction signal := by
  obtain ⟨place, unit, rfl, atPlace, isGenerator⟩ := sound.generator_of_mem_sources isSource
  rw [← InstrumentUnit.socket?_of_isGenerator isGenerator] at isSocket
  exact ready.numbered.hasSocket_new atPlace isSocket _

/-- A graph stays ready when a definition that expands is placed in it. -/
theorem Ready.entered
    {journal : Journal}
    (ready : Ready journal.draft frequency consumer)
    {definition : Definition}
    (expands : definition.Expands) :
    Ready (definition.entered journal frequency consumer).draft frequency consumer :=
  ⟨ready.numbered.grow _ _, expands.wellPatched ready,
    ready.frequency_output.grow ready.numbered _ _,
    ready.consumer_input.grow ready.numbered _ _⟩

/-- What a body grows to behind a module that was placed before it. -/
theorem entered_grow
    (body : Definition)
    (journal : Journal)
    (unit : InstrumentUnit)
    (pitch outlet : ModuleId)
    (patches : List Patch) :
    (body.entered (journal.add unit) pitch outlet).grow [] patches =
      journal.grow (unit :: body.units)
        (body.wires pitch outlet (journal.draft.nextId + 1) ++ patches) := by
  rw [entered, Journal.grow_grow, Journal.add_eq_grow, Journal.grow_grow]
  simp [Journal.grow, Graph.grow]

theorem entered_grow_grow
    (body : Definition)
    (journal : Journal)
    (unit : InstrumentUnit)
    (pitch outlet : ModuleId)
    (patches more : List Patch) :
    ((body.entered (journal.add unit) pitch outlet).grow [] patches).grow [] more =
      journal.grow (unit :: body.units)
        (body.wires pitch outlet (journal.draft.nextId + 1) ++ (patches ++ more)) := by
  rw [Journal.grow_grow, List.append_nil, entered_grow]

/-- The only patches of a body that leave the module before it carry its pitch. -/
theorem Ready.source_ne_of_body
    (ready : Ready draft frequency consumer)
    {body : Definition}
    {unit : InstrumentUnit}
    {pitch outlet : ModuleId}
    {patch : Patch}
    (member : patch ∈ (body.laidOut (draft.add unit .origin) pitch outlet).patches)
    {name : String}
    (notPitch : name ≠ "FREQ") :
    patch.source ≠ ⟨draft.nextId, name⟩ := by
  intro isSource
  rcases List.mem_append.mp member with old | new
  · have before := ready.source_lt old
    rw [isSource] at before
    exact absurd before (Nat.lt_irrefl _)
  · rcases wires_source new with isPitch | inside
    · exact notPitch (congrArg Endpoint.socket (isSource.symm.trans isPitch))
    · rw [isSource] at inside
      exact absurd inside.1 (Nat.not_succ_le_self _)

/-- The only patches of a body that reach the module before it carry its audio. -/
theorem Ready.target_ne_of_body
    (ready : Ready draft frequency consumer)
    {body : Definition}
    {unit : InstrumentUnit}
    {pitch outlet : ModuleId}
    {patch : Patch}
    (member : patch ∈ (body.laidOut (draft.add unit .origin) pitch outlet).patches)
    {name : String}
    (notAudio : name ≠ "IN") :
    patch.target ≠ ⟨draft.nextId, name⟩ := by
  intro isTarget
  rcases List.mem_append.mp member with old | new
  · have before := ready.target_lt old
    rw [isTarget] at before
    exact absurd before (Nat.lt_irrefl _)
  · rcases wires_target new with isAudio | inside
    · exact notAudio (congrArg Endpoint.socket (isTarget.symm.trans isAudio))
    · rw [isTarget] at inside
      exact absurd inside.1 (Nat.not_succ_le_self _)

/-- Expansion looks for sound sources without a patch and finds those without a pitch. -/
theorem Ready.untuned_laidOut
    (ready : Ready draft frequency consumer)
    (definition : Definition) :
    untuned (definition.laidOut draft frequency consumer) (definition.sources draft.nextId) =
      definition.unpitched draft.nextId := by
  have sourcesNodup := (within_sources definition draft.nextId).nodup
  refine Eq.trans (List.filter_congr ?_)
    (filter_mem_of_sublist (unpitched_sublist_sources definition draft.nextId) sourcesNodup)
  intro generator isSource
  have bounds := (within_sources definition draft.nextId).bounds generator isSource
  have oldUntouched : ∀ patch ∈ draft.patches, ¬ patch.touches ⟨generator, "FREQ"⟩ := by
    intro patch member touches
    simp only [Patch.touches, Bool.or_eq_true, decide_eq_true_eq] at touches
    rcases touches with isEnd | isEnd
    · have old := ready.source_lt member
      rw [isEnd] at old
      exact absurd old (Nat.not_lt_of_le bounds.1)
    · have old := ready.target_lt member
      rw [isEnd] at old
      exact absurd old (Nat.not_lt_of_le bounds.1)
  rw [Bool.eq_iff_iff, Bool.not_eq_true', Graph.isConnected, List.any_eq_false, decide_eq_true_eq,
    mem_unpitched_iff consumer ready.frequency_lt isSource, Definition.laidOut, Graph.grow,
    List.forall_mem_append, and_iff_right oldUntouched]

end Ready

section Cases

theorem expands_silence : Expands (combined []) where
  enter_eq {journal _ _} _ := by
    simp [enter, enterAll, sources, sourcesAll, entered, units, unitsAll, wires, wiresAll,
      Journal.grow, Graph.grow, Graph.place]
  wellPatched {journal _ _} ready := by
    simpa [entered, units, unitsAll, wires, wiresAll, Journal.grow, Graph.grow, Graph.place]
      using ready.wellPatched

theorem expands_omitted : Expands omitted where
  enter_eq {journal _ _} _ := by
    simp [enter, sources, entered, units, wires, Journal.grow, Graph.grow, Graph.place]
  wellPatched {journal _ _} ready := by
    simpa [entered, units, wires, Journal.grow, Graph.grow, Graph.place] using ready.wellPatched

theorem entered_combined
    (first : Definition)
    (rest : List Definition)
    (journal : Journal)
    (frequency consumer : ModuleId) :
    (combined rest).entered (first.entered journal frequency consumer) frequency consumer =
      (combined (first :: rest)).entered journal frequency consumer :=
  Journal.grow_grow _ _ _ _ _

theorem Expands.combined
    {first : Definition}
    {rest : List Definition}
    (firstExpands : first.Expands)
    (restExpands : (combined rest).Expands) :
    (combined (first :: rest)).Expands where
  enter_eq {journal frequency consumer} ready := by
    have placed := restExpands.enter_eq (ready.entered firstExpands)
    rw [entered_combined] at placed
    simp only [enter] at placed
    simp only [enter, enterAll, firstExpands.enter_eq ready, bind, Except.bind, placed]
    rfl
  wellPatched {journal frequency consumer} ready := by
    have kept := restExpands.wellPatched (ready.entered firstExpands)
    rw [entered_combined] at kept
    exact kept

theorem expands_generator
    {unit : InstrumentUnit}
    (isGenerator : unit.isGenerator) :
    (generator unit).Expands := by
  refine .of_ready fun {journal frequency consumer} ready => ?_
  have added : Ready (journal.add unit).draft frequency consumer := ready.add unit
  have outlet :=
    ready.hasSocket_added (InstrumentUnit.socket?_of_isGenerator isGenerator "OUT")
  obtain ⟨patched, wellPatched⟩ :=
    patch_new added.wellPatched (.audio journal.draft.nextId consumer)
      ⟨outlet, added.consumer_input⟩
      (by
        intro patch member isSource
        have old := ready.source_lt member
        rw [isSource] at old
        exact absurd old (Nat.lt_irrefl _))
  have grown :
      (journal.add unit).grow [] [.audio journal.draft.nextId consumer] =
        (generator unit).entered journal frequency consumer := by
    rw [Journal.add_eq_grow, Journal.grow_grow]
    rfl
  rw [grown] at patched wellPatched
  have made :
      (journal.add unit).patch ⟨journal.draft.nextId, "OUT"⟩ ⟨consumer, "IN"⟩ = _ :=
    patched
  refine ⟨?_, wellPatched⟩
  simp only [enter, made, bind, Except.bind, pure, Except.pure]
  rfl

theorem Expands.filter
    {body : Definition}
    (expands : body.Expands)
    (mode : FilterMode)
    (dials : Dials) :
    (filter mode dials body).Expands := by
  refine .of_ready fun {journal frequency consumer} ready => ?_
  have added := ready.add (.filter mode dials)
  have bodyReady :
      Ready (journal.add (.filter mode dials)).draft frequency journal.draft.nextId :=
    { added with consumer_input := ready.hasSocket_added rfl }
  obtain ⟨patched, wellPatched⟩ :=
    patch_new (bodyReady.entered expands).wellPatched (.audio journal.draft.nextId consumer)
      ⟨(ready.hasSocket_added rfl).grow added.numbered _ _,
        added.consumer_input.grow added.numbered _ _⟩
      fun patch member isSource => absurd isSource (ready.source_ne_of_body member (by decide))
  rw [entered_grow] at patched wellPatched
  have made :
      (body.entered (journal.add (.filter mode dials)) frequency journal.draft.nextId).patch
        ⟨journal.draft.nextId, "OUT"⟩ ⟨consumer, "IN"⟩ = _ :=
    patched
  refine ⟨?_, wellPatched⟩
  simp only [enter, expands.enter_eq bodyReady, made, bind, Except.bind, pure, Except.pure]
  rfl

theorem Expands.panning
    {body : Definition}
    (expands : body.Expands)
    (sound : body.Sound) :
    (panning body).Expands := by
  refine .of_ready fun {journal frequency consumer} ready => ?_
  have added : Ready (journal.add .panning).draft frequency consumer := ready.add .panning
  have placed := added.entered expands
  obtain ⟨spread, spreadWell⟩ :=
    spread_eq placed.wellPatched placed.numbered
      (within_sources body (journal.draft.nextId + 1)).nodup
      ((ready.hasSocket_added rfl).grow added.numbered _ _)
      (fun generator isSource => added.hasSocket_source sound isSource rfl)
      fun generator _ patch member isSource =>
        absurd isSource (ready.source_ne_of_body member (by decide))
  obtain ⟨patched, wellPatched⟩ :=
    patch_new spreadWell (.pitch frequency journal.draft.nextId)
      ⟨placed.frequency_output.grow placed.numbered _ _,
        ((ready.hasSocket_added rfl).grow added.numbered _ _).grow placed.numbered _ _⟩
      (by
        intro patch member _ isTarget
        rcases List.mem_append.mp member with isBody | isPlace
        · exact ready.target_ne_of_body isBody (by decide) isTarget
        · obtain ⟨generator, _, rfl⟩ := List.mem_map.mp isPlace
          simp [Patch.place, Patch.pitch] at isTarget)
  rw [entered_grow_grow] at patched wellPatched
  have made :
      ((body.entered (journal.add .panning) frequency consumer).grow []
          ((body.sources (journal.draft.nextId + 1)).map (.place journal.draft.nextId))).patch
        ⟨frequency, "FREQ"⟩ ⟨journal.draft.nextId, "FREQ"⟩ = _ :=
    patched
  refine ⟨?_, wellPatched⟩
  simp only [enter, expands.enter_eq added, bind, Except.bind, pure, Except.pure]
  rw [show (journal.add .panning).draft.nextId = journal.draft.nextId + 1 from rfl, spread]
  simp only [made]
  rfl

theorem Expands.transpose
    {body : Definition}
    (expands : body.Expands)
    (sound : body.Sound)
    (dials : Dials) :
    (transpose dials body).Expands := by
  refine .of_ready fun {journal frequency consumer} ready => ?_
  have added := ready.add (.transpose dials)
  have bodyReady : Ready (journal.add (.transpose dials)).draft journal.draft.nextId consumer :=
    { added with frequency_output := ready.hasSocket_added rfl }
  have placed := bodyReady.entered expands
  have untunedEq :
      untuned
          (body.entered (journal.add (.transpose dials)) journal.draft.nextId consumer).draft
          (body.sources (journal.draft.nextId + 1)) =
        body.unpitched (journal.draft.nextId + 1) :=
    bodyReady.untuned_laidOut body
  obtain ⟨tuned, tunedWell⟩ :=
    tune_eq placed.wellPatched placed.numbered
      (within_sources body (journal.draft.nextId + 1)).nodup placed.frequency_output
      fun generator isSource => bodyReady.hasSocket_source sound isSource rfl
  rw [untunedEq] at tuned tunedWell
  obtain ⟨patched, wellPatched⟩ :=
    patch_new tunedWell (.shift frequency journal.draft.nextId)
      ⟨(added.frequency_output.grow added.numbered _ _).grow placed.numbered _ _,
        ((ready.hasSocket_added rfl).grow added.numbered _ _).grow placed.numbered _ _⟩
      (by
        intro patch member _ isTarget
        rcases List.mem_append.mp member with isBody | isPitch
        · exact ready.target_ne_of_body isBody (by decide) isTarget
        · obtain ⟨generator, _, rfl⟩ := List.mem_map.mp isPitch
          simp [Patch.pitch, Patch.shift] at isTarget)
  rw [entered_grow_grow] at patched wellPatched
  have made :
      ((body.entered (journal.add (.transpose dials)) journal.draft.nextId consumer).grow []
          ((body.unpitched (journal.draft.nextId + 1)).map (.pitch journal.draft.nextId))).patch
        ⟨frequency, "FREQ"⟩ ⟨journal.draft.nextId, "FREQ IN"⟩ = _ :=
    patched
  refine ⟨?_, wellPatched⟩
  simp only [enter, expands.enter_eq bodyReady, bind, Except.bind, pure, Except.pure]
  rw [show (journal.add (.transpose dials)).draft.nextId = journal.draft.nextId + 1 from rfl,
    tuned]
  simp only [made]
  rfl

end Cases

/-- Definitions of sound sources expand to their layout. -/
theorem Sound.expands
    {definition : Definition}
    (sound : definition.Sound) :
    definition.Expands := by
  induction sound with
  | silence =>
      exact expands_silence
  | combined _ _ firstHypothesis restHypothesis =>
      exact firstHypothesis.combined restHypothesis
  | panning body inductionHypothesis =>
      exact inductionHypothesis.panning body
  | @transpose dials _ _ body inductionHypothesis =>
      exact inductionHypothesis.transpose body dials
  | generator isGenerator _ =>
      exact expands_generator isGenerator
  | omitted =>
      exact expands_omitted
  | @filter mode dials _ _ _ inductionHypothesis =>
      exact inductionHypothesis.filter mode dials

section Loaded

/-- The graph of a definition between an input and an output. -/
def loaded (definition : Definition) : Draft :=
  Instrument.new.graph.grow definition.units
    (definition.wires Instrument.inputId Instrument.outputId 2
      ++ (definition.unpitched 2).map (.pitch Instrument.inputId))

/-- Sound sources are found by their units. -/
theorem Sound.filter_place
    {definition : Definition}
    (sound : definition.Sound)
    (start : ModuleId) :
    ((Graph.place start definition.units).filter (·.unit.isGenerator)).map Module.id =
      definition.sources start := by
  induction sound generalizing start with
  | silence =>
      rfl
  | combined _ _ firstHypothesis restHypothesis =>
      rw [units, unitsAll, Graph.place_append, List.filter_append, List.map_append,
        firstHypothesis, sources, sourcesAll]
      congr 1
      exact restHypothesis _
  | panning _ inductionHypothesis =>
      exact inductionHypothesis (start + 1)
  | transpose _ _ inductionHypothesis =>
      exact inductionHypothesis (start + 1)
  | generator isGenerator _ =>
      simp [units, Graph.place, isGenerator, sources]
  | omitted =>
      rfl
  | filter _ _ inductionHypothesis =>
      exact inductionHypothesis (start + 1)

theorem ready_new : Ready Instrument.new.graph Instrument.inputId Instrument.outputId where
  numbered := (Graph.numbered_empty.add _ _).add _ _
  wellPatched := (Graph.wellPatched_empty.add _ _).add _ _
  frequency_output := ⟨.input, rfl, rfl⟩
  consumer_input := ⟨.output, rfl, rfl⟩

/-- Every call that builds a definition makes one of the patches of its graph. -/
theorem Sound.toJournal_eq
    {definition : Definition}
    (sound : definition.Sound) :
    definition.toJournal = .ok ⟨definition.loaded, definition.loaded.patches.map .made⟩ ∧
      definition.loaded.WellPatched := by
  have ready : Ready (Journal.start Instrument.new.graph).draft Instrument.inputId
      Instrument.outputId := ready_new
  have entered := sound.expands.enter_eq ready
  have placed := ready.entered sound.expands
  have found :
      generators
          (definition.entered (.start Instrument.new.graph) Instrument.inputId
            Instrument.outputId).draft =
        definition.sources 2 :=
    sound.filter_place 2
  have tuned :=
    tune_eq placed.wellPatched placed.numbered (within_sources definition 2).nodup
      placed.frequency_output
      fun generator isSource => ready_new.hasSocket_source sound isSource rfl
  have untunedEq :
      untuned
          (definition.entered (.start Instrument.new.graph) Instrument.inputId
            Instrument.outputId).draft
          (definition.sources 2) =
        definition.unpitched 2 :=
    ready_new.untuned_laidOut definition
  have grown :
      (definition.entered (.start Instrument.new.graph) Instrument.inputId
            Instrument.outputId).grow []
          ((definition.unpitched 2).map (.pitch Instrument.inputId)) =
        ⟨definition.loaded, definition.loaded.patches.map .made⟩ := by
    rw [Definition.entered, Journal.grow_grow, List.append_nil]
    rfl
  rw [untunedEq, grown] at tuned
  refine ⟨?_, tuned.2⟩
  simp only [toJournal, entered, bind, Except.bind, found]
  exact tuned.1

/-- A definition of sound sources is expanded, and all of them are tuned. -/
theorem Sound.toGraph_eq
    {definition : Definition}
    (sound : definition.Sound) :
    definition.toGraph = .ok definition.loaded ∧ definition.loaded.WellPatched := by
  rw [← draft_toJournal, sound.toJournal_eq.1]
  exact ⟨rfl, sound.toJournal_eq.2⟩

end Loaded

end Definition

end SynthGraph
