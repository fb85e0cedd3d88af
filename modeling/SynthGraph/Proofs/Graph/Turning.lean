import SynthGraph.Proofs.GraphFile.RoundTrip
import SynthGraph.Proofs.Unit.Ranges

namespace SynthGraph

/-!
# Turning the dials of modules

However an instrument or a sequence came about, the dials of its units keep their
ranges, and turning a dial of a module changes that dial and nothing else in the
graph (`Graph.catalogs_keepRanges`).
-/

open CatalogUnit

/--
Units of instruments as they can come about: new from the catalog, read from a
definition, or found in an instrument, then changed.
-/
inductive InstrumentUnit.Obtained : InstrumentUnit → Prop where
  | create {kind : String} {unit : InstrumentUnit} :
      InstrumentUnit.registry.create? kind = some unit → Obtained unit
  | generator {document : Document} {unit : InstrumentUnit} :
      Definition.generator? document = some unit → Obtained unit
  | filter {body : Document} {mode : FilterMode} {dials : Dials} :
      Definition.filter? body = .ok (mode, dials) → Obtained (.filter mode dials)
  | held {instrument : Instrument} {module : Module InstrumentUnit} :
      instrument.Reachable → module ∈ instrument.graph.modules → Obtained module.unit
  | setDial {unit turned : InstrumentUnit} {id : String} {value : Double} :
      Obtained unit → unit.setDial? id value = some turned → Obtained turned
  | withSample {unit : InstrumentUnit} (sample : Sample) :
      Obtained unit → Obtained (unit.withSample sample)

/-- The dials of a unit are those of its kind, turned, wherever the unit comes from. -/
theorem InstrumentUnit.Obtained.tuned
    {unit : InstrumentUnit}
    (obtained : unit.Obtained) :
    Tuned unit := by
  induction obtained with
  | create created =>
      exact tuned_create? created
  | generator found =>
      exact Definition.tuned_of_generator? found
  | filter accepted =>
      exact Definition.turned_of_filter? accepted
  | held reachable member =>
      exact reachable.storable.tuned _ member
  | setDial _ isTurned inductionHypothesis =>
      exact inductionHypothesis.setDial? isTurned
  | withSample sample _ inductionHypothesis =>
      exact inductionHypothesis.withSample sample

/-- So every such unit may be added to a graph that is edited. -/
theorem InstrumentUnit.Obtained.drawn
    {unit : InstrumentUnit}
    (obtained : unit.Obtained) :
    Drawn unit :=
  drawn_iff_tuned.mpr obtained.tuned

namespace Graph

variable {U : Type}

/-- With numbers that tell modules apart, the unit of a module is found under its number. -/
theorem Numbered.unit?_eq_some_iff
    {graph : Graph U}
    (numbered : graph.Numbered)
    {id : ModuleId}
    {unit : U} :
    graph.unit? id = some unit ↔ ∃ module ∈ graph.modules, module.id = id ∧ module.unit = unit := by
  constructor
  · intro found
    obtain ⟨module, isModule, isUnit⟩ := Option.map_eq_some_iff.mp found
    obtain ⟨member, isNumber⟩ := module?_some isModule
    exact ⟨module, member, isNumber, isUnit⟩
  · rintro ⟨module, member, rfl, rfl⟩
    exact numbered.unit?_of_mem member

variable [UnitLike U]

/-- What turning a dial of a module does to a graph. -/
structure TurnsOneDial [CatalogUnit U] (graph : Graph U) : Prop where
  /-- A write is refused if there is no such module, or if it has no such dial. -/
  refused_iff :
    ∀ id dial value,
      graph.setDial? id dial value = none ↔
        ∀ module ∈ graph.modules,
          module.id = id → dial ∉ (UnitLike.dials module.unit).map Dial.id
  /-- A refused write changes nothing. -/
  unchanged :
    ∀ id dial value,
      graph.setDial? id dial value = none →
        graph.apply (.setDial id dial value) = graph
  /-- Any other write changes the value of this dial of this module, and nothing else. -/
  written :
    ∀ id dial value turned,
      graph.setDial? id dial value = some turned →
        turned =
          { graph with
            modules :=
              graph.modules.map fun module =>
                if module.id = id then
                  { module with
                    unit :=
                      withDials
                        ((UnitLike.dials module.unit).map fun other =>
                          if other.id = dial then
                            { other with value := other.clamp value }
                          else
                            other)
                        module.unit }
                else
                  module }

section Turning

variable {graph : Graph U} {id : ModuleId} {dial : String} {value : Double}

theorem setDial?_eq_none_iff :
    graph.setDial? id dial value = none ↔
      ∀ unit, graph.unit? id = some unit → UnitLike.setDial? unit dial value = none := by
  cases found : graph.unit? id with
  | none => simp [setDial?, found]
  | some unit => cases turned : UnitLike.setDial? unit dial value <;> simp [setDial?, found, turned]

theorem turnsOneDial
    [CatalogUnit U]
    (numbered : graph.Numbered)
    (keepsRanges : ∀ module ∈ graph.modules, KeepsRanges module.unit) :
    graph.TurnsOneDial where
  refused_iff id dial value := by
    rw [setDial?_eq_none_iff]
    constructor
    · intro refused module member isNumber
      have found := numbered.unit?_eq_some_iff.mpr ⟨module, member, isNumber, rfl⟩
      exact ((keepsRanges module member).refused_iff dial value).mp (refused _ found)
    · intro absent unit found
      obtain ⟨module, member, isNumber, rfl⟩ := numbered.unit?_eq_some_iff.mp found
      exact ((keepsRanges module member).refused_iff dial value).mpr
        (absent module member isNumber)
  unchanged id dial value refused := by
    simp only [Graph.apply, refused, Option.getD_none]
  written id dial value turned isTurned := by
    obtain ⟨unit, turnedUnit, found, unitTurned, rfl⟩ := setDial?_some isTurned
    rw [replaceUnit, updateModule]
    congr 1
    apply List.map_congr_left
    intro module member
    split
    · rename_i isNumber
      have sameUnit : module.unit = unit := by
        have isUnit := numbered.unit?_eq_some_iff.mpr ⟨module, member, isNumber, rfl⟩
        exact Option.some.inj (isUnit.symm.trans found)
      have written := (keepsRanges module member).written dial value turnedUnit
        (sameUnit ▸ unitTurned)
      rw [← written.1, ← written.2]
    · rfl

theorem Storable.keepsRanges
    [CatalogUnit U]
    (storable : graph.Storable) :
    (∀ module ∈ graph.modules, KeepsRanges module.unit) ∧ graph.TurnsOneDial := by
  have keepsRanges : ∀ module ∈ graph.modules, KeepsRanges module.unit :=
    fun module member => (storable.tuned module member).keepsRanges
  exact ⟨keepsRanges, turnsOneDial storable.numbered keepsRanges⟩

end Turning

/-- Dials stay in their ranges, in single units and in whatever graphs hold them. -/
theorem catalogs_keepRanges :
    (∀ unit : InstrumentUnit, unit.Obtained → KeepsRanges unit) ∧
      (∀ unit : SequenceUnit, Drawn unit → KeepsRanges unit) ∧
      (∀ instrument : Instrument,
        instrument.Reachable →
          (∀ module ∈ instrument.graph.modules, KeepsRanges module.unit) ∧
            instrument.graph.TurnsOneDial) ∧
      ∀ sequence : Sequence,
        sequence.Reachable →
          (∀ module ∈ sequence.graph.modules, KeepsRanges module.unit) ∧
            sequence.graph.TurnsOneDial :=
  ⟨fun _ obtained => obtained.tuned.keepsRanges,
    fun _ drawn => drawn.tuned.keepsRanges,
    fun _ reachable => reachable.storable.keepsRanges,
    fun _ reachable => reachable.storable.keepsRanges⟩

/-- A definition that asks for too much, a dial without a number, and writes that are refused. -/
theorem catalogs_keepRanges_turned :
    let document : Document :=
      .record
        [("sine", .record [("gain", .integer 9), ("attack", .integer (-1)), ("pan", .integer 1)])]
    let sound : List (Operation InstrumentUnit) :=
      [.add (.ofMode .delay) .origin, .setDial 2 "time" .notANumber, .setDial 2 "factor" 7,
        .setDial 2 "gain" 1, .setDial 9 "time" 1]
    let beat : List (Operation SequenceUnit) :=
      [.add (.playNote PlayNote.dials) .origin, .setDial 1 "note" (-3)]
    let instrument : Instrument := ⟨none, none, Instrument.new.graph.run sound⟩
    let sequence : Sequence := ⟨5, (Sequence.new 5).graph.run beat⟩
    (∃ unit turned,
        Definition.generator? document = some unit ∧
          (UnitLike.dials unit).map Dial.value = [0, 4, 0.5, 0, 0, 0, 0] ∧
          UnitLike.setDial? unit "gain" 2.5 = some turned ∧
          UnitLike.dial? turned "gain" = some 2.5) ∧
      (∃ turned,
        UnitLike.setDial? (.range .sweep RangeKind.dials : SequenceUnit) "to" 64 = some turned ∧
          UnitLike.dial? turned "to" = some 64) ∧
      (instrument.graph.modules.map fun module =>
          (UnitLike.dials module.unit).map Dial.value) =
        [[], [], [.notANumber, 2, 0]] ∧
      instrument.graph.setDial? 2 "gain" 1 = none ∧
      instrument.graph.setDial? 9 "time" 1 = none ∧
      (∀ module ∈ sequence.graph.modules,
        ∀ dial ∈ UnitLike.dials module.unit,
          dial.Holds dial.value ∨ dial.value = .notANumber) := by
  intro document sound beat instrument sequence
  have instrumentReachable : instrument.Reachable :=
    Instrument.reachable_run (Operation.drawn_of_isPlain (by decide +kernel)) _ _
  have sequenceReachable : sequence.Reachable :=
    Sequence.reachable_run (Operation.drawn_of_isPlain (by decide +kernel)) 5
  obtain ⟨unit, isRead⟩ : ∃ unit, Definition.generator? document = some unit :=
    Option.isSome_iff_exists.mp (by decide +kernel)
  have read :
      (Definition.generator? document).map UnitLike.dials =
        some
          [⟨"pitch", 0, 22000, 0⟩, ⟨"gain", 0, 4, 4⟩, ⟨"panning", 0, 1, 0.5⟩,
            ⟨"attack", 0, 10, 0⟩, ⟨"decay", 0, 10, 0⟩, ⟨"sustain", 0, 1, 0⟩,
            ⟨"release", 0, 10, 0⟩] := by
    decide +kernel
  rw [isRead, Option.map_some, Option.some.injEq] at read
  have unitRanges := catalogs_keepRanges.1 unit (.generator isRead)
  have rangeRanges :=
    catalogs_keepRanges.2.1 (.range .sweep RangeKind.dials)
      (.create (show registry.create? "sweep" = _ from by decide +kernel))
  have instrumentRanges := catalogs_keepRanges.2.2.1 instrument instrumentReachable
  have sequenceRanges := catalogs_keepRanges.2.2.2 sequence sequenceReachable
  refine ⟨?_, ?_, ?_, ?_, ?_, ?_⟩
  · have isGain : (⟨"gain", 0, 4, 4⟩ : Dial) ∈ UnitLike.dials unit := by
      simp [read]
    obtain ⟨turned, isTurned, stored⟩ :=
      unitRanges.stored _ isGain 2.5 ⟨by decide +kernel, by decide +kernel⟩
    refine ⟨unit, turned, isRead, ?_, isTurned, stored⟩
    simp [read]
  · exact rangeRanges.stored ⟨"to", 0, 127, 127⟩ (by decide +kernel) 64
      ⟨by decide +kernel, by decide +kernel⟩
  · decide +kernel
  · exact (instrumentRanges.2.refused_iff 2 "gain" 1).mpr (by decide +kernel)
  · exact (instrumentRanges.2.refused_iff 9 "time" 1).mpr (by decide +kernel)
  · exact fun module member => (sequenceRanges.1 module member).held

end Graph

end SynthGraph
