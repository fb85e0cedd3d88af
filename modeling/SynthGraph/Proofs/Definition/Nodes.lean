import SynthGraph.Proofs.Definition.Forms
import SynthGraph.Proofs.Definition.Placement

namespace SynthGraph

/-!
# The modules of a document

Every panning, transpose, sound source and filter of a document becomes a module,
numbered before those inside it.  Where a module stands tells all its patches
(`Node.patches`): what counts is the innermost filter, the innermost transpose and
the pannings around it.  Expansion makes these patches and no others, though in
another order (`Sound.wiring_perm`).
-/

namespace InstrumentUnit

/-- Whether a unit is a filter. -/
def isFilter : InstrumentUnit → Bool
  | filter _ _ => true
  | _ => false

/-- Whether a unit is a transpose. -/
def isTranspose : InstrumentUnit → Bool
  | transpose _ => true
  | _ => false

/-- Whether a unit is a panning. -/
def isPanning : InstrumentUnit → Bool
  | panning => true
  | _ => false

end InstrumentUnit

namespace Definition

/-- A module of a definition with the modules it stands in, the innermost first. -/
structure Node where
  module : Module InstrumentUnit
  around : List (Module InstrumentUnit)
  deriving Repr, DecidableEq

section Around

variable (around : List (Module InstrumentUnit))

/-- The innermost module around that has such a unit, or else another module. -/
def nearest (isWanted : InstrumentUnit → Bool) (other : ModuleId) : ModuleId :=
  ((around.find? (isWanted ·.unit)).map Module.id).getD other

/-- Where audio goes: to the innermost filter around, or else to the output. -/
def consumerIn : ModuleId :=
  nearest around InstrumentUnit.isFilter Instrument.outputId

/-- Where the pitch derives from: the innermost transpose around, or else the input. -/
def frequencyIn : ModuleId :=
  nearest around InstrumentUnit.isTranspose Instrument.inputId

/-- All pannings around, the innermost first. -/
def panningsIn : List ModuleId :=
  (around.filter (·.unit.isPanning)).map Module.id

/-- Modules that stand around a number have smaller ones, the outer the smaller. -/
structure Encloses (id : ModuleId) : Prop where
  decreasing : around.Pairwise fun inner outer => outer.id < inner.id
  before : ∀ outer ∈ around, outer.id < id

end Around

/-- The patches that lead a pitch or a place to a module, and the one that leads its audio on. -/
def Node.patches (node : Node) : List Patch :=
  match node.module.unit with
  | .generator _ _ | .wav _ _ =>
      .audio node.module.id (consumerIn node.around)
        :: .pitch (frequencyIn node.around) node.module.id
        :: (panningsIn node.around).map (.place · node.module.id)
  | .filter _ _ => [.audio node.module.id (consumerIn node.around)]
  | .transpose _ => [.shift (frequencyIn node.around) node.module.id]
  | .panning => [.pitch (frequencyIn node.around) node.module.id]
  | .input | .output => []

mutual

/-- The modules of a definition, numbered from `start`, with those around each. -/
def nodes (around : List (Module InstrumentUnit)) (start : ModuleId) : Definition → List Node
  | combined parts => nodesAll around start parts
  | panning body =>
      let own := ⟨start, .origin, .panning⟩
      ⟨own, around⟩ :: body.nodes (own :: around) (start + 1)
  | transpose dials body =>
      let own := ⟨start, .origin, .transpose dials⟩
      ⟨own, around⟩ :: body.nodes (own :: around) (start + 1)
  | generator unit => [⟨⟨start, .origin, unit⟩, around⟩]
  | omitted => []
  | filter mode dials body =>
      let own := ⟨start, .origin, .filter mode dials⟩
      ⟨own, around⟩ :: body.nodes (own :: around) (start + 1)

/-- The modules of several definitions, one after the other. -/
def nodesAll (around : List (Module InstrumentUnit)) (start : ModuleId) :
    List Definition → List Node
  | [] => []
  | first :: rest =>
      first.nodes around start ++ nodesAll around (start + first.units.length) rest

end

end Definition

namespace Document

open Definition

mutual

/--
The modules of a document in the order in which they are met when it is read from
the outside in, numbered from `start`, with those around each.
-/
def nodes (around : List (Module InstrumentUnit)) (start : ModuleId) (document : Document) :
    List Node :=
  match _form : document.form? with
  | some (.combined, .list parts) => nodesAll around start parts
  | some (.panning, body) =>
      let own := ⟨start, .origin, .panning⟩
      ⟨own, around⟩ :: body.nodes (own :: around) (start + 1)
  | some (.transpose, body) =>
      let own := ⟨start, .origin, .transpose (readTranspose body)⟩
      ⟨own, around⟩ :: body.nodes (own :: around) (start + 1)
  | some (.source, _) =>
      match generator? document with
      | some unit => [⟨⟨start, .origin, unit⟩, around⟩]
      | none => []
  | some (.filter, body) =>
      match filter? body with
      | .ok (mode, dials) =>
          let own := ⟨start, .origin, .filter mode dials⟩
          ⟨own, around⟩ :: body.nodes (own :: around) (start + 1)
      | .error _ => []
  | _ => []
termination_by sizeOf document
decreasing_by
  · have smaller := sizeOf_form? _form
    rw [list.sizeOf_spec] at smaller
    omega
  all_goals exact sizeOf_form? _form

/-- The modules of several documents, one after the other. -/
def nodesAll (around : List (Module InstrumentUnit)) (start : ModuleId) :
    List Document → List Node
  | [] => []
  | first :: rest =>
      let placed := first.nodes around start
      placed ++ nodesAll around (start + placed.length) rest
termination_by documents => sizeOf documents

end

theorem nodes_eq
    (document : Document)
    (around : List (Module InstrumentUnit))
    (start : ModuleId) :
    document.nodes around start =
      match document.form? with
      | some (.combined, .list parts) => nodesAll around start parts
      | some (.panning, body) =>
          let own := ⟨start, .origin, .panning⟩
          ⟨own, around⟩ :: body.nodes (own :: around) (start + 1)
      | some (.transpose, body) =>
          let own := ⟨start, .origin, .transpose (readTranspose body)⟩
          ⟨own, around⟩ :: body.nodes (own :: around) (start + 1)
      | some (.source, _) =>
          match generator? document with
          | some unit => [⟨⟨start, .origin, unit⟩, around⟩]
          | none => []
      | some (.filter, body) =>
          match filter? body with
          | .ok (mode, dials) =>
              let own := ⟨start, .origin, .filter mode dials⟩
              ⟨own, around⟩ :: body.nodes (own :: around) (start + 1)
          | .error _ => []
      | _ => [] := by
  rw [nodes]
  cases document.form? with
  | none =>
      rfl
  | some found =>
      obtain ⟨form, value⟩ := found
      cases form <;> cases value <;> rfl

end Document

namespace Definition

/-- The modules of a definition are those of its units. -/
theorem map_module_nodes
    (definition : Definition)
    (around : List (Module InstrumentUnit))
    (start : ModuleId) :
    (definition.nodes around start).map Node.module = Graph.place start definition.units := by
  induction definition generalizing around start with
  | silence | omitted =>
      rfl
  | combined first rest firstHypothesis restHypothesis =>
      rw [units, unitsAll, Graph.place_append, ← firstHypothesis around start, nodes, nodesAll,
        List.map_append]
      congr 1
      exact restHypothesis around _
  | panning body inductionHypothesis =>
      exact congrArg _ (inductionHypothesis _ (start + 1))
  | transpose dials body inductionHypothesis =>
      exact congrArg _ (inductionHypothesis _ (start + 1))
  | generator unit =>
      rfl
  | filter mode dials body inductionHypothesis =>
      exact congrArg _ (inductionHypothesis _ (start + 1))

theorem length_nodes
    (definition : Definition)
    (around : List (Module InstrumentUnit))
    (start : ModuleId) :
    (definition.nodes around start).length = definition.units.length := by
  rw [← Graph.length_place start definition.units, ← map_module_nodes definition around start,
    List.length_map]

theorem nodesAll_of_ofDocuments
    {documents : List Document}
    (each :
      ∀ document ∈ documents, ∀ definition, ofDocument document = .ok definition →
        ∀ around start, document.nodes around start = definition.nodes around start)
    {definitions : List Definition}
    (accepted : ofDocuments documents = .ok definitions)
    (around : List (Module InstrumentUnit))
    (start : ModuleId) :
    Document.nodesAll around start documents = nodesAll around start definitions := by
  induction documents generalizing definitions start with
  | nil =>
      rw [ofDocuments] at accepted
      cases accepted
      rw [Document.nodesAll, nodesAll]
  | cons first rest inductionHypothesis =>
      rw [ofDocuments] at accepted
      obtain ⟨firstDefinition, firstAccepted, later⟩ := bind_eq_ok_iff.mp accepted
      obtain ⟨restDefinitions, restAccepted, done⟩ := bind_eq_ok_iff.mp later
      cases done
      rw [List.forall_mem_cons] at each
      simp only [Document.nodesAll, nodesAll, each.1 _ firstAccepted, length_nodes,
        inductionHypothesis each.2 restAccepted]

/-- The modules of a document are those of the definition that it spells. -/
theorem nodes_of_ofDocument
    {document : Document}
    {definition : Definition}
    (accepted : ofDocument document = .ok definition)
    (around : List (Module InstrumentUnit))
    (start : ModuleId) :
    document.nodes around start = definition.nodes around start := by
  induction document using Document.formInduction generalizing definition around start with
  | step document inductionHypothesis =>
      rw [ofDocument_eq_of_form] at accepted
      rw [Document.nodes_eq]
      cases isForm : document.form? with
      | none =>
          rw [isForm] at accepted
          cases accepted
      | some found =>
          obtain ⟨form, value⟩ := found
          have each := inductionHypothesis form value isForm
          simp only [isForm] at accepted
          cases form with
          | combined =>
              cases value with
              | list items =>
                  obtain ⟨definitions, partsAccepted, rfl⟩ := map_eq_ok_iff.mp accepted
                  exact nodesAll_of_ofDocuments (fun part member _ => each part member)
                    partsAccepted around start
              | _ =>
                  cases accepted
          | panning =>
              obtain ⟨body, bodyAccepted, rfl⟩ := map_eq_ok_iff.mp accepted
              exact congrArg _ (each value (List.mem_singleton_self value) bodyAccepted _ _)
          | transpose =>
              obtain ⟨body, bodyAccepted, rfl⟩ := map_eq_ok_iff.mp accepted
              exact congrArg _ (each value (List.mem_singleton_self value) bodyAccepted _ _)
          | source =>
              obtain ⟨unit, isUnit⟩ := exists_generator? isForm
              simp only [isUnit] at accepted ⊢
              cases accepted
              rfl
          | omitted =>
              cases accepted
              rfl
          | filter =>
              obtain ⟨⟨mode, dials⟩, isEffect, later⟩ := bind_eq_ok_iff.mp accepted
              obtain ⟨body, bodyAccepted, rfl⟩ := map_eq_ok_iff.mp later
              simp only [isEffect]
              exact congrArg _ (each value (List.mem_singleton_self value) bodyAccepted _ _)

theorem Encloses.cons
    {around : List (Module InstrumentUnit)}
    {start : ModuleId}
    (encloses : Encloses around start)
    (unit : InstrumentUnit) :
    Encloses (⟨start, .origin, unit⟩ :: around) (start + 1) where
  decreasing := List.pairwise_cons.mpr ⟨encloses.before, encloses.decreasing⟩
  before :=
    List.forall_mem_cons.mpr
      ⟨Nat.lt_succ_self start, fun outer member => Nat.lt_succ_of_lt (encloses.before outer member)⟩

theorem Encloses.add
    {around : List (Module InstrumentUnit)}
    {start : ModuleId}
    (encloses : Encloses around start)
    (count : Nat) :
    Encloses around (start + count) :=
  ⟨encloses.decreasing, fun outer member => Nat.lt_add_right count (encloses.before outer member)⟩

/-- No panning is met twice around a module. -/
theorem Encloses.nodup_panningsIn
    {around : List (Module InstrumentUnit)}
    {id : ModuleId}
    (encloses : Encloses around id) :
    (panningsIn around).Nodup :=
  List.pairwise_map.mpr ((encloses.decreasing.filter _).imp Nat.ne_of_gt)

/-- What stands around a module of a definition encloses it. -/
theorem encloses_of_mem_nodes
    {definition : Definition}
    {around : List (Module InstrumentUnit)}
    {start : ModuleId}
    (encloses : Encloses around start)
    {node : Node}
    (member : node ∈ definition.nodes around start) :
    Encloses node.around node.module.id := by
  induction definition generalizing around start with
  | silence | omitted =>
      cases member
  | combined first rest firstHypothesis restHypothesis =>
      rcases List.mem_append.mp member with isFirst | isRest
      · exact firstHypothesis encloses isFirst
      · exact restHypothesis (encloses.add _) isRest
  | panning body inductionHypothesis =>
      rcases List.mem_cons.mp member with rfl | isBody
      · exact encloses
      · exact inductionHypothesis (encloses.cons _) isBody
  | transpose dials body inductionHypothesis =>
      rcases List.mem_cons.mp member with rfl | isBody
      · exact encloses
      · exact inductionHypothesis (encloses.cons _) isBody
  | generator unit =>
      obtain rfl := List.mem_singleton.mp member
      exact encloses
  | filter mode dials body inductionHypothesis =>
      rcases List.mem_cons.mp member with rfl | isBody
      · exact encloses
      · exact inductionHypothesis (encloses.cons _) isBody

/-- The patches from the pannings around a definition to its sound sources. -/
def placing (definition : Definition) (pannings : List ModuleId) (start : ModuleId) : List Patch :=
  (definition.sources start).flatMap fun generator => pannings.map (.place · generator)

theorem placing_cons
    (definition : Definition)
    (panning : ModuleId)
    (pannings : List ModuleId)
    (start : ModuleId) :
    (definition.placing (panning :: pannings) start).Perm
      ((definition.sources start).map (.place panning) ++ definition.placing pannings start) := by
  rw [List.map_eq_flatMap]
  exact
    (List.flatMap_append_perm (definition.sources start)
      (fun generator => [Patch.place panning generator]) _).symm

/-- The patches of a definition and of what is around it are those of its modules. -/
theorem Sound.wiring_perm
    {definition : Definition}
    (sound : definition.Sound)
    (around : List (Module InstrumentUnit))
    (start : ModuleId) :
    (definition.wiring (frequencyIn around) (consumerIn around) start
        ++ definition.placing (panningsIn around) start).Perm
      ((definition.nodes around start).flatMap Node.patches) := by
  induction sound generalizing around start with
  | silence | omitted =>
      exact .refl _
  | @combined first rest _ _ firstHypothesis restHypothesis =>
      have firstPerm := firstHypothesis around start
      have restPerm := restHypothesis around (start + first.units.length)
      rw [nodes] at restPerm
      rw [nodes, nodesAll, List.flatMap_append]
      refine List.Perm.trans ?_ (firstPerm.append restPerm)
      simp only [wiring, wires, wiresAll, unpitched, unpitchedAll, placing, sources, sourcesAll,
        List.map_append, List.flatMap_append]
      rw [List.perm_iff_count]
      intro patch
      simp only [List.count_append]
      omega
  | @panning body _ inductionHypothesis =>
      have bodyPerm :
          (body.wiring (frequencyIn around) (consumerIn around) (start + 1)
              ++ body.placing (start :: panningsIn around) (start + 1)).Perm _ :=
        inductionHypothesis (⟨start, .origin, .panning⟩ :: around) (start + 1)
      have places := placing_cons body start (panningsIn around) (start + 1)
      refine List.Perm.trans ?_ (bodyPerm.cons (.pitch (frequencyIn around) start))
      refine List.Perm.trans ?_ ((places.symm.append_left _).cons _)
      rw [List.perm_iff_count]
      intro patch
      simp only [wiring, wires, unpitched, placing, sources, List.count_append, List.count_cons,
        List.count_nil]
      omega
  | @transpose dials body _ _ inductionHypothesis =>
      have bodyPerm :
          (body.wiring start (consumerIn around) (start + 1)
              ++ body.placing (panningsIn around) (start + 1)).Perm _ :=
        inductionHypothesis (⟨start, .origin, .transpose dials⟩ :: around) (start + 1)
      refine List.Perm.trans ?_ (bodyPerm.cons (.shift (frequencyIn around) start))
      rw [List.perm_iff_count]
      intro patch
      simp only [wiring, wires, unpitched, placing, sources, List.count_append, List.count_cons,
        List.count_nil, List.map_nil]
      omega
  | @generator unit isGenerator _ =>
      cases unit <;> cases isGenerator <;>
        simp [wiring, wires, unpitched, placing, sources, nodes, Node.patches]
  | @filter mode dials body _ _ inductionHypothesis =>
      have bodyPerm :
          (body.wiring (frequencyIn around) start (start + 1)
              ++ body.placing (panningsIn around) (start + 1)).Perm _ :=
        inductionHypothesis (⟨start, .origin, .filter mode dials⟩ :: around) (start + 1)
      refine List.Perm.trans ?_ (bodyPerm.cons (.audio start (consumerIn around)))
      rw [List.perm_iff_count]
      intro patch
      simp only [wiring, wires, unpitched, placing, sources, List.count_append, List.count_cons,
        List.count_nil]
      omega

end Definition

end SynthGraph
