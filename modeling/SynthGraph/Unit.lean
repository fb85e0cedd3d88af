import SynthGraph.Signal
import SynthGraph.Dial
import SynthGraph.Emission

namespace SynthGraph

/-!
# Units

A unit is what a module of a graph does: a kind, sockets, dials, and a rule that
compiles what arrives at its inputs.  Graphs, schedules and files work for any
type of units.
-/

/-- What a graph needs to know about a type of units. -/
class UnitLike (U : Type) where
  /-- What all units of one graph are compiled against. -/
  Context : Type
  /-- The name of what the unit does. -/
  kind : U → String
  /-- The sockets of the unit. -/
  sockets : U → List Socket
  /-- The dials of the unit. -/
  dials : U → Dials
  /-- The unit after a dial is turned; none if it has no such dial. -/
  setDial? : U → String → Double → Option U
  /-- What the unit contributes, given what arrives at its sockets. -/
  compile : Context → Connections → U → Emission

namespace UnitLike

variable {U : Type} [UnitLike U]

/-- The socket of a unit with a name. -/
def socket? (unit : U) (name : String) : Option Socket :=
  (sockets unit).find? (·.name = name)

/-- The sockets of a unit that take signals in. -/
def inputs (unit : U) : List Socket :=
  (sockets unit).filter Socket.isInput

/-- The value of a dial of a unit. -/
def dial? (unit : U) (id : String) : Option Double :=
  Dials.get? (dials unit) id

/-- The unit after a dial is turned, if it has the dial. -/
def setDial (unit : U) (id : String) (value : Double) : U :=
  (setDial? unit id value).getD unit

end UnitLike

/-- The kinds of units that a graph may hold, each by a unit with its dials unturned. -/
structure Registry (U : Type) where
  prototypes : List U

/-- A kind is in a registry at most once. -/
structure KindTaken where
  kind : String
  deriving Repr, DecidableEq

/-- The text of the refusal. -/
def KindTaken.message (refusal : KindTaken) : String :=
  "Unit '" ++ refusal.kind ++ "' is already registered"

namespace Registry

variable {U : Type} [UnitLike U]

/-- A registry without kinds. -/
def empty : Registry U :=
  ⟨[]⟩

/-- The kinds in the order in which they were registered. -/
def kinds (registry : Registry U) : List String :=
  registry.prototypes.map UnitLike.kind

/-- Whether a kind is registered. -/
def contains (registry : Registry U) (kind : String) : Bool :=
  registry.kinds.contains kind

/-- A new unit of a kind. -/
def create? (registry : Registry U) (kind : String) : Option U :=
  registry.prototypes.find? (UnitLike.kind · = kind)

/-- A new unit of every kind. -/
def instances (registry : Registry U) : List U :=
  registry.kinds.filterMap registry.create?

/-- Add a kind after the others. -/
def register (registry : Registry U) (prototype : U) : Except KindTaken (Registry U) :=
  if registry.contains (UnitLike.kind prototype) then
    .error ⟨UnitLike.kind prototype⟩
  else
    .ok ⟨registry.prototypes ++ [prototype]⟩

end Registry

end SynthGraph
