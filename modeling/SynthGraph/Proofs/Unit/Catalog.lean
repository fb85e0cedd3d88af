import SynthGraph.Proofs.Unit.Dials
import SynthGraph.Proofs.Unit.Sockets

namespace SynthGraph

/-!
# Catalogs of units

Each kind of unit is registered under its own name and declares its dials.  A
unit is known by its kind, its dials and, if it plays one, its sample
(`CatalogUnit.create?_kind`).  However a unit is made from the catalog, its dials
stay the declared ones, turned within their ranges (`CatalogUnit.Drawn.tuned`).
-/

/-- Units of a catalog, each with the dials that its kind declares. -/
class CatalogUnit (U : Type) [UnitLike U] extends LawfulUnit U where
  /-- A new unit of every kind. -/
  registry : Registry U
  /-- The dials of a new unit of the same kind. -/
  declared : U → Dials
  /-- The unit with other dials, if it has dials. -/
  withDials : Dials → U → U
  /-- The sample of a unit that plays one. -/
  sample? : U → Option Sample
  /-- The unit with another sample, if it plays one. -/
  withSample : Sample → U → U
  declarable (unit : U) : Dials.Declarable (declared unit)
  setDial?_eq (unit : U) (id : String) (value : Double) :
    UnitLike.setDial? unit id value =
      (Dials.set? (UnitLike.dials unit) id value).map (withDials · unit)
  withDials_dials (unit : U) : withDials (UnitLike.dials unit) unit = unit
  withDials_withDials (dials others : Dials) (unit : U) :
    withDials dials (withDials others unit) = withDials dials unit
  dials_withDials (dials : Dials) (unit : U) :
    dials.length = (UnitLike.dials unit).length →
      UnitLike.dials (withDials dials unit) = dials
  declared_withDials (dials : Dials) (unit : U) : declared (withDials dials unit) = declared unit
  declared_withSample (sample : Sample) (unit : U) :
    declared (withSample sample unit) = declared unit
  dials_withSample (sample : Sample) (unit : U) :
    UnitLike.dials (withSample sample unit) = UnitLike.dials unit
  sockets_withSample (sample : Sample) (unit : U) :
    UnitLike.sockets (withSample sample unit) = UnitLike.sockets unit
  /-- New units have the dials of their kinds. -/
  dials_prototype : ∀ unit ∈ registry.prototypes, UnitLike.dials unit = declared unit
  /-- A unit is a new one of its kind with its dials and its sample. -/
  create?_kind (unit : U) :
    ∃ new,
      registry.create? (UnitLike.kind unit) = some new ∧
        UnitLike.dials new = declared unit ∧
        ∀ dials,
          (match sample? unit with
            | some sample => withSample sample (withDials dials new)
            | none => withDials dials new) =
            withDials dials unit

theorem Generator.declarable_dials : Dials.Declarable Generator.dials := by
  decide +kernel

theorem FilterMode.declarable_dials
    (mode : FilterMode) :
    Dials.Declarable mode.dials := by
  cases mode <;> decide +kernel

theorem Transpose.declarable_dials : Dials.Declarable Transpose.dials := by
  decide +kernel

namespace InstrumentUnit

/-- The dials of a new unit of the same kind. -/
def declared : InstrumentUnit → Dials
  | generator _ _ => Generator.dials
  | wav _ _ => Generator.dials
  | filter mode _ => mode.dials
  | transpose _ => Transpose.dials
  | _ => []

theorem declarable_declared
    (unit : InstrumentUnit) :
    Dials.Declarable unit.declared := by
  cases unit with
  | generator | wav =>
      exact Generator.declarable_dials
  | filter mode _ =>
      exact mode.declarable_dials
  | transpose =>
      exact Transpose.declarable_dials
  | input | output | panning =>
      exact (by decide : Dials.Declarable [])

instance : CatalogUnit InstrumentUnit where
  registry := registry
  declared := declared
  withDials := withDials
  sample? := sample?
  withSample := withSample
  declarable := declarable_declared
  setDial?_eq _ _ _ := rfl
  withDials_dials unit := by
    cases unit <;> rfl
  withDials_withDials _ _ unit := by
    cases unit <;> rfl
  dials_withDials dials unit sameLength := by
    cases unit with
    | input | output | panning =>
        exact (List.length_eq_zero_iff.mp sameLength).symm
    | generator | wav | filter | transpose =>
        rfl
  declared_withDials _ unit := by
    cases unit <;> rfl
  declared_withSample _ unit := by
    cases unit <;> rfl
  dials_withSample _ unit := by
    cases unit <;> rfl
  sockets_withSample _ unit := by
    cases unit <;> rfl
  dials_prototype := by
    decide +kernel
  create?_kind unit := by
    cases unit with
    | generator waveform dials =>
        refine ⟨ofWaveform waveform, ?_, rfl, fun _ => rfl⟩
        cases waveform <;> rfl
    | filter mode dials =>
        refine ⟨ofMode mode, ?_, rfl, fun _ => rfl⟩
        cases mode <;> rfl
    | input | output | wav | transpose | panning =>
        exact ⟨_, rfl, rfl, fun _ => rfl⟩

end InstrumentUnit

namespace SequenceUnit

/-- The dials of a new unit of the same kind. -/
def declared : SequenceUnit → Dials
  | input => []
  | pulse _ => Pulse.dials
  | range _ _ => RangeKind.dials
  | playNote _ => PlayNote.dials

theorem declarable_declared
    (unit : SequenceUnit) :
    Dials.Declarable unit.declared := by
  cases unit <;> simp only [declared] <;> decide +kernel

/-- No unit of a sequence plays a sample. -/
instance : CatalogUnit SequenceUnit where
  registry := registry
  declared := declared
  withDials := withDials
  sample? _ := none
  withSample _ unit := unit
  declarable := declarable_declared
  setDial?_eq _ _ _ := rfl
  withDials_dials unit := by
    cases unit <;> rfl
  withDials_withDials _ _ unit := by
    cases unit <;> rfl
  dials_withDials dials unit sameLength := by
    cases unit with
    | input =>
        exact (List.length_eq_zero_iff.mp sameLength).symm
    | pulse | range | playNote =>
        rfl
  declared_withDials _ unit := by
    cases unit <;> rfl
  declared_withSample _ _ := rfl
  dials_withSample _ _ := rfl
  sockets_withSample _ _ := rfl
  dials_prototype := by
    decide +kernel
  create?_kind unit := by
    cases unit with
    | range walk dials =>
        refine ⟨range walk RangeKind.dials, ?_, rfl, fun _ => rfl⟩
        cases walk <;> rfl
    | input | pulse | playNote =>
        exact ⟨_, rfl, rfl, fun _ => rfl⟩

end SequenceUnit

namespace CatalogUnit

variable {U : Type} [UnitLike U] [CatalogUnit U]

/-- The dials of a unit are those of its kind, turned. -/
def Tuned (unit : U) : Prop :=
  Dials.Turned (declared unit) (UnitLike.dials unit)

theorem tuned_of_declared
    {unit : U}
    (isNew : UnitLike.dials unit = declared unit) :
    Tuned unit := by
  rw [Tuned, isNew]
  exact (declarable unit).turned

/-- Units as they are made: new from the catalog, then with dials turned and samples chosen. -/
inductive Drawn : U → Prop where
  | create {kind : String} {unit : U} :
      registry.create? kind = some unit → Drawn unit
  | setDial {unit turned : U} {id : String} {value : Double} :
      Drawn unit → UnitLike.setDial? unit id value = some turned → Drawn turned
  | withSample {unit : U} (sample : Sample) :
      Drawn unit → Drawn (withSample sample unit)

theorem tuned_create?
    {kind : String}
    {unit : U}
    (created : registry.create? kind = some unit) :
    Tuned unit :=
  tuned_of_declared (dials_prototype unit (List.mem_of_find?_eq_some created))

theorem Tuned.withDials
    {unit : U}
    {dials : Dials}
    (tuned : Tuned unit)
    (turned : Dials.Turned (declared unit) dials) :
    Tuned (withDials dials unit) := by
  have sameLength : dials.length = (UnitLike.dials unit).length :=
    turned.length_eq.symm.trans tuned.length_eq
  rw [Tuned, declared_withDials, dials_withDials dials unit sameLength]
  exact turned

theorem Tuned.setDial?
    {unit turned : U}
    {id : String}
    {value : Double}
    (tuned : Tuned unit)
    (isTurned : UnitLike.setDial? unit id value = some turned) :
    Tuned turned := by
  rw [setDial?_eq] at isTurned
  obtain ⟨dials, isSet, rfl⟩ := Option.map_eq_some_iff.mp isTurned
  exact tuned.withDials (tuned.set? (declarable unit).ordered isSet)

theorem Tuned.withSample
    {unit : U}
    (tuned : Tuned unit)
    (sample : Sample) :
    Tuned (withSample sample unit) := by
  rw [Tuned, declared_withSample, dials_withSample]
  exact tuned

theorem Drawn.tuned
    {unit : U}
    (drawn : Drawn unit) :
    Tuned unit := by
  induction drawn with
  | create created =>
      exact tuned_create? created
  | setDial _ isTurned inductionHypothesis =>
      exact inductionHypothesis.setDial? isTurned
  | withSample sample _ inductionHypothesis =>
      exact inductionHypothesis.withSample sample

theorem setDial_eq
    (unit : U)
    (id : String)
    (value : Double) :
    UnitLike.setDial unit id value = withDials (Dials.set (UnitLike.dials unit) id value) unit := by
  rw [UnitLike.setDial, setDial?_eq, Dials.set]
  cases Dials.set? (UnitLike.dials unit) id value with
  | none =>
      exact (withDials_dials unit).symm
  | some dials =>
      rfl

theorem Tuned.setDial
    {unit : U}
    (tuned : Tuned unit)
    (id : String)
    (value : Double) :
    Tuned (UnitLike.setDial unit id value) := by
  rw [setDial_eq]
  exact tuned.withDials (tuned.set (declarable unit).ordered id value)

/-- Turning several dials of a unit turns them among its dials. -/
theorem foldl_setDial
    {unit : U}
    (tuned : Tuned unit)
    (entries : Entries Double) :
    entries.foldl (fun unit entry => UnitLike.setDial unit entry.1 entry.2) unit =
        withDials
          (entries.foldl (fun dials entry => Dials.set dials entry.1 entry.2)
            (UnitLike.dials unit))
          unit ∧
      Tuned (entries.foldl (fun unit entry => UnitLike.setDial unit entry.1 entry.2) unit) := by
  induction entries generalizing unit with
  | nil =>
      exact ⟨(withDials_dials unit).symm, tuned⟩
  | cons entry rest inductionHypothesis =>
      have turned := tuned.set (declarable unit).ordered entry.1 entry.2
      have sameLength :
          (Dials.set (UnitLike.dials unit) entry.1 entry.2).length =
            (UnitLike.dials unit).length :=
        turned.length_eq.symm.trans tuned.length_eq
      have step := inductionHypothesis (tuned.setDial entry.1 entry.2)
      rw [List.foldl_cons, List.foldl_cons]
      refine ⟨step.1.trans ?_, step.2⟩
      rw [setDial_eq, dials_withDials _ _ sameLength, withDials_withDials]

theorem Drawn.foldl_setDial
    {unit : U}
    (drawn : Drawn unit)
    (entries : Entries Double) :
    Drawn (entries.foldl (fun unit entry => UnitLike.setDial unit entry.1 entry.2) unit) := by
  induction entries generalizing unit with
  | nil =>
      exact drawn
  | cons entry rest inductionHypothesis =>
      rw [List.foldl_cons, UnitLike.setDial]
      cases isTurned : UnitLike.setDial? unit entry.1 entry.2 with
      | none =>
          exact inductionHypothesis drawn
      | some turned =>
          exact inductionHypothesis (drawn.setDial isTurned)

/-- A new unit whose dials are turned to those of a unit of its kind has these dials. -/
theorem Tuned.foldl_values
    {unit new : U}
    (tuned : Tuned unit)
    (created : registry.create? (UnitLike.kind unit) = some new)
    (newDials : UnitLike.dials new = declared unit) :
    (Dials.values (UnitLike.dials unit)).foldl
        (fun unit entry => UnitLike.setDial unit entry.1 entry.2) new =
      CatalogUnit.withDials (UnitLike.dials unit) new := by
  have folded :=
    (CatalogUnit.foldl_setDial (tuned_create? created) (Dials.values (UnitLike.dials unit))).1
  rw [newDials, Dials.Turned.foldl_values tuned (declarable unit)] at folded
  exact folded

/-- The units that can be made are exactly those with the dials of their kinds, turned. -/
theorem drawn_iff_tuned
    {unit : U} :
    Drawn unit ↔ Tuned unit := by
  refine ⟨Drawn.tuned, fun tuned => ?_⟩
  obtain ⟨new, created, newDials, restored⟩ := create?_kind unit
  have turned :=
    (Drawn.create created).foldl_setDial (Dials.values (UnitLike.dials unit))
  rw [tuned.foldl_values created newDials] at turned
  have whole := restored (UnitLike.dials unit)
  rw [withDials_dials] at whole
  rw [← whole]
  split
  · exact turned.withSample _
  · exact turned

end CatalogUnit

end SynthGraph
