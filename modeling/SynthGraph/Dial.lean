import SynthGraph.Number.Decimal

namespace SynthGraph

/-!
# Dials

A dial is a named number with a range.  Writing a dial clamps the number to the
range; what is not a number passes unchanged.
-/

/-- A dial: its name within its unit, its range and its present value. -/
structure Dial where
  id : String
  least : Double
  greatest : Double
  value : Double
  deriving Repr, DecidableEq

namespace Dial

/-- A value brought into the range of the dial. -/
def clamp (dial : Dial) (value : Double) : Double :=
  if value.less dial.least then
    dial.least
  else if dial.greatest.less value then
    dial.greatest
  else
    value

/-- The dial turned to a value. -/
def set (dial : Dial) (value : Double) : Dial :=
  { dial with value := dial.clamp value }

/-- Whether the bounds are numbers in order, so that there is a range to clamp to. -/
def isOrdered (dial : Dial) : Bool :=
  dial.least.atMost dial.greatest

/-- Turning a dial changes neither its name nor its range. -/
theorem set_shape (dial : Dial) (value : Double) :
    (dial.set value).id = dial.id
      ∧ (dial.set value).least = dial.least
      ∧ (dial.set value).greatest = dial.greatest := by
  simp [set]

end Dial

/-- The dials of a unit in their declared order. -/
abbrev Dials := List Dial

namespace Dials

/-- The first dial with a name. -/
def find? (dials : Dials) (id : String) : Option Dial :=
  List.find? (·.id = id) dials

/-- The value of a dial. -/
def get? (dials : Dials) (id : String) : Option Double :=
  (Dials.find? dials id).map Dial.value

/-- The value of a dial, zero if there is none. -/
def value (dials : Dials) (id : String) : Double :=
  (Dials.get? dials id).getD 0

/-- The dials after one of them is turned; none if there is no such dial. -/
def set? : Dials → String → Double → Option Dials
  | [], _, _ => none
  | dial :: rest, id, value =>
      if dial.id = id then
        some (dial.set value :: rest)
      else
        (set? rest id value).map (dial :: ·)

/-- The dials after one of them is turned, if it is there. -/
def set (dials : Dials) (id : String) (value : Double) : Dials :=
  (Dials.set? dials id value).getD dials

end Dials

end SynthGraph
