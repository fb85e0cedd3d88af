import SynthGraph.Proofs.Graph.Identity
import SynthGraph.Proofs.Number.ReadBack

namespace SynthGraph

/-!
# Ranges of dials

Whatever is written to the dials of a unit of a catalog, they keep the names and
the ranges that the kind of the unit declares, and each of them stands within
its range or at no number.  So there is always a range to clamp to, and a value
within the range is stored as it is (`CatalogUnit.Tuned.keepsRanges`).
-/

namespace Binary

variable {format : Format} {left right : Binary format}

theorem place?_eq_none_iff
    {number : Binary format} :
    number.place? = none ↔ number = .notANumber := by
  cases number with
  | finite | notANumber =>
      simp [place?]
  | infinite negative =>
      cases negative <;> simp [place?]

theorem atMost_iff :
    left.atMost right ↔
      ∃ first second, left.place? = some first ∧ right.place? = some second ∧ first ≤ second := by
  unfold atMost less same
  cases left.place? with
  | none =>
      simp
  | some first =>
      cases right.place? with
      | none =>
          simp
      | some second =>
          simp [← Int.le_iff_lt_or_eq]

theorem less_eq_false_iff
    {first second : Int}
    (leftPlace : left.place? = some first)
    (rightPlace : right.place? = some second) :
    left.less right = false ↔ second ≤ first := by
  simp [less, leftPlace, rightPlace]

end Binary

namespace Dial

/-- Whether a value lies between the bounds of a dial. -/
def Holds (dial : Dial) (value : Double) : Prop :=
  dial.least.atMost value ∧ value.atMost dial.greatest

/-- Clamping keeps exactly what lies in the range, and what is no number. -/
theorem clamp_eq_self_iff
    {dial : Dial}
    (ordered : dial.isOrdered)
    {value : Double} :
    dial.clamp value = value ↔ dial.Holds value ∨ value = .notANumber := by
  obtain ⟨least, greatest, leastPlace, greatestPlace, _⟩ := Binary.atMost_iff.mp ordered
  cases place : value.place? with
  | none =>
      obtain rfl := Binary.place?_eq_none_iff.mp place
      exact iff_of_true (by simp [clamp, Binary.less, place]) (Or.inr rfl)
  | some middle =>
      have isNumber : value ≠ .notANumber := by
        rintro rfl
        cases place
      have holds_iff : dial.Holds value ↔ least ≤ middle ∧ middle ≤ greatest := by
        simp [Holds, Binary.atMost_iff, leastPlace, greatestPlace, place]
      have notBelow_iff := Binary.less_eq_false_iff place leastPlace
      have notAbove_iff := Binary.less_eq_false_iff greatestPlace place
      rw [or_iff_left isNumber, holds_iff]
      constructor
      · intro kept
        obtain ⟨notBelow, notAbove⟩ := not_less_of_clamp kept
        exact ⟨notBelow_iff.mp notBelow, notAbove_iff.mp notAbove⟩
      · rintro ⟨atLeast, atMost⟩
        simp [clamp, notBelow_iff.mpr atLeast, notAbove_iff.mpr atMost]

end Dial

namespace Dials

variable {declared dials : Dials}

/-- Turned dials are the declared ones at other values. -/
theorem Turned.sameShape
    (turned : Turned declared dials) :
    declared.SameShape dials := by
  refine List.Forall₂.imp ?_ turned
  intro dial turnedDial isTurned
  rw [← isTurned]
  rfl

/-- Every turned dial is a declared one, set to the value where it stands. -/
theorem Turned.exists_declared
    (turned : Turned declared dials)
    {dial : Dial}
    (member : dial ∈ dials) :
    ∃ new ∈ declared, new.set dial.value = dial := by
  unfold Turned at turned
  induction turned with
  | nil =>
      cases member
  | cons isTurned _ inductionHypothesis =>
      rcases List.mem_cons.mp member with rfl | later
      · exact ⟨_, List.mem_cons_self, isTurned⟩
      · obtain ⟨new, newMember, isSet⟩ := inductionHypothesis later
        exact ⟨new, List.mem_cons_of_mem _ newMember, isSet⟩

/-- Setting a dial keeps its bounds. -/
theorem bounds_of_set
    {new dial : Dial}
    {value : Double}
    (isSet : new.set value = dial) :
    dial.least = new.least ∧ dial.greatest = new.greatest := by
  rw [← isSet]
  exact ⟨rfl, rfl⟩

/-- Turned dials have the ranges of declared ones, and stand in them. -/
theorem Turned.ordered_inRange
    (turned : Turned declared dials)
    (ordered : ∀ dial ∈ declared, dial.isOrdered) :
    ∀ dial ∈ dials, dial.isOrdered ∧ InRange dial := by
  intro dial member
  obtain ⟨new, newMember, isTurned⟩ := turned.exists_declared member
  have bounds := bounds_of_set isTurned
  have sameClamp : dial.clamp = new.clamp := by
    funext value
    simp only [Dial.clamp, bounds]
  constructor
  · rw [Dial.isOrdered, bounds.1, bounds.2]
    exact ordered new newMember
  · rw [InRange, sameClamp]
    exact congrArg Dial.value isTurned

theorem get?_change_self
    (idsNodup : (dials.map Dial.id).Nodup)
    {dial : Dial}
    (member : dial ∈ dials)
    (value : Double) :
    Dials.get? (change (·.set value) dials dial.id) dial.id = some (dial.clamp value) := by
  have changed : dial.set value ∈ change (·.set value) dials dial.id :=
    List.mem_map.mpr ⟨dial, member, by simp⟩
  have sameIds := ids_change (fun other => (other.set_shape value).1) dials dial.id
  have keptIds : ((change (·.set value) dials dial.id).map Dial.id).Nodup := by
    rw [sameIds]
    exact idsNodup
  have found := find?_of_mem keptIds changed
  rw [(dial.set_shape value).1] at found
  rw [Dials.get?, found]
  rfl

end Dials

namespace CatalogUnit

variable {U : Type} [UnitLike U] [CatalogUnit U]

/-- What holds of the dials of a unit, whatever was written to them before. -/
structure KeepsRanges (unit : U) : Prop where
  /-- The dials are those of a new unit of the kind, at other values. -/
  declared :
    ∃ new : U,
      registry.create? (UnitLike.kind unit) = some new ∧
        Dials.SameShape (UnitLike.dials new) (UnitLike.dials unit)
  ids_nodup : ((UnitLike.dials unit).map Dial.id).Nodup
  /-- The bounds of every dial are numbers in order, so that clamping is defined. -/
  ordered : ∀ dial ∈ UnitLike.dials unit, dial.isOrdered
  /-- Every value lies in its range or is no number. -/
  held : ∀ dial ∈ UnitLike.dials unit, dial.Holds dial.value ∨ dial.value = .notANumber
  /-- A write to a name without a dial is refused, and no other is. -/
  refused_iff :
    ∀ id value,
      UnitLike.setDial? unit id value = none ↔ id ∉ (UnitLike.dials unit).map Dial.id
  /-- A write changes the value of the dial with the name, and nothing else. -/
  written :
    ∀ id value turned,
      UnitLike.setDial? unit id value = some turned →
        UnitLike.dials turned =
            (UnitLike.dials unit).map
              (fun dial =>
                if dial.id = id then { dial with value := dial.clamp value } else dial) ∧
          turned = withDials (UnitLike.dials turned) unit
  /-- A value in the range is stored as it is. -/
  stored :
    ∀ dial ∈ UnitLike.dials unit,
      ∀ value,
        dial.Holds value →
          ∃ turned,
            UnitLike.setDial? unit dial.id value = some turned ∧
              UnitLike.dial? turned dial.id = some value

theorem setDial?_eq_change
    {unit : U}
    (idsNodup : ((UnitLike.dials unit).map Dial.id).Nodup)
    (id : String)
    (value : Double) :
    UnitLike.setDial? unit id value =
      if id ∈ (UnitLike.dials unit).map Dial.id then
        some (withDials (Dials.change (·.set value) (UnitLike.dials unit) id) unit)
      else
        none := by
  rw [setDial?_eq, Dials.set?_eq_change idsNodup]
  split <;> rfl

theorem dials_withDials_change
    (unit : U)
    (update : Dial → Dial)
    (id : String) :
    UnitLike.dials (withDials (Dials.change update (UnitLike.dials unit) id) unit) =
      Dials.change update (UnitLike.dials unit) id :=
  dials_withDials _ unit (by simp [Dials.change])

theorem Tuned.keepsRanges
    {unit : U}
    (tuned : Tuned unit) :
    KeepsRanges unit := by
  have declarable := declarable unit
  have idsNodup : ((UnitLike.dials unit).map Dial.id).Nodup := by
    rw [Dials.Turned.ids tuned]
    exact declarable.ids_nodup
  have ranges := Dials.Turned.ordered_inRange tuned declarable.ordered
  constructor
  case declared =>
    obtain ⟨new, created, newDials, _⟩ := create?_kind unit
    exact ⟨new, created, newDials ▸ Dials.Turned.sameShape tuned⟩
  case ids_nodup =>
    exact idsNodup
  case ordered =>
    exact fun dial member => (ranges dial member).1
  case held =>
    intro dial member
    obtain ⟨ordered, inRange⟩ := ranges dial member
    exact (Dial.clamp_eq_self_iff ordered).mp inRange
  case refused_iff =>
    intro id value
    rw [setDial?_eq_change idsNodup]
    split <;> simp_all
  case written =>
    intro id value turned isTurned
    rw [setDial?_eq_change idsNodup, Option.ite_none_right_eq_some, Option.some.injEq] at isTurned
    obtain ⟨_, rfl⟩ := isTurned
    rw [dials_withDials_change]
    exact ⟨rfl, rfl⟩
  case stored =>
    intro dial member value holds
    rw [setDial?_eq_change idsNodup, if_pos (List.mem_map_of_mem member)]
    refine ⟨_, rfl, ?_⟩
    have unclamped : dial.clamp value = value :=
      (Dial.clamp_eq_self_iff (ranges dial member).1).mpr (Or.inl holds)
    rw [UnitLike.dial?, dials_withDials_change, Dials.get?_change_self idsNodup member, unclamped]

end CatalogUnit

end SynthGraph
