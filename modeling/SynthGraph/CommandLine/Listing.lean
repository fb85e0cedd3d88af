import SynthGraph.Unit.Instrument
import SynthGraph.Unit.Sequence
import SynthGraph.Number.Numeral

namespace SynthGraph.Listing

/-!
# The listing of all units

Every unit is listed with its sockets and dials, kind after kind.
-/

/-- A text followed by blanks up to a width. -/
def padded (width : Nat) (text : String) : String :=
  text ++ String.ofList (List.replicate (width - text.length) ' ')

/-- A number as it is listed: written out, without a fraction when it is whole. -/
def number : Double → String
  | .finite value => value.plainText
  | .infinite false => "inf"
  | .infinite true => "-inf"
  | .notANumber => "NaN"

/-- The arrow in front of a socket. -/
def arrow : Direction → String
  | .input => "<-"
  | .output => "->"

/-- The line of a socket. -/
def socketLine (socket : Socket) : String :=
  "    " ++ arrow socket.direction ++ " " ++ padded 8 socket.name ++ " " ++ socket.signal.name

/-- The line of a dial with its value and range. -/
def dialLine (dial : Dial) : String :=
  "    " ++ padded 11 dial.id ++ " " ++ number dial.value
    ++ " [" ++ number dial.least ++ ", " ++ number dial.greatest ++ "]"

/-- The lines of a unit, after an empty one. -/
def unitLines {U : Type} [UnitLike U] (unit : U) : List String :=
  ["", "  " ++ UnitLike.kind unit]
    ++ (UnitLike.sockets unit).map socketLine
    ++ (UnitLike.dials unit).map dialLine

/-- The lines of a registry under an underlined title. -/
def registryLines {U : Type} [UnitLike U] (title : String) (registry : Registry U) :
    List String :=
  [title, String.ofList (List.replicate title.length '=')]
    ++ registry.instances.flatMap unitLines

/-- The lines of the whole listing. -/
def lines : List String :=
  registryLines "Instrument units" InstrumentUnit.registry
    ++ [""]
    ++ registryLines "Sequence units" SequenceUnit.registry

end SynthGraph.Listing
