namespace SynthGraph

/-!
# Signals

Every socket carries one type of signal, and a patch joins two sockets of the
same type only.
-/

/-- What flows through a patch. -/
inductive Signal where
  | audio
  | frequency
  | panning
  | clock
  | trigger
  | integer
  deriving Repr, DecidableEq

namespace Signal

/-- Every signal type. -/
def all : List Signal :=
  [audio, frequency, panning, clock, trigger, integer]

/-- The name shown for a signal type. -/
def name : Signal → String
  | audio => "Audio"
  | frequency => "Frequency"
  | panning => "Panning"
  | clock => "Clock"
  | trigger => "Trigger"
  | integer => "Integer"

/-- The signal type with a name. -/
def ofName? (name : String) : Option Signal :=
  all.find? (·.name = name)

/-- Signals are never converted: both ends of a patch carry the same type. -/
def connects (source target : Signal) : Bool :=
  source = target

/-- The list of signal types is complete. -/
theorem mem_all (signal : Signal) : signal ∈ all := by
  cases signal <;> simp [all]

end Signal

/-- The two sides a socket can be on. -/
inductive Direction where
  | input
  | output
  deriving Repr, DecidableEq

namespace Direction

/-- The name shown for a direction. -/
def name : Direction → String
  | input => "Input"
  | output => "Output"

end Direction

/-- A socket of a unit: its name there, its side and its signal. -/
structure Socket where
  name : String
  direction : Direction
  signal : Signal
  deriving Repr, DecidableEq

namespace Socket

/-- A socket that takes a signal in. -/
def input (name : String) (signal : Signal) : Socket :=
  ⟨name, .input, signal⟩

/-- A socket that gives a signal out. -/
def output (name : String) (signal : Signal) : Socket :=
  ⟨name, .output, signal⟩

/-- Whether signals enter here. -/
def isInput (socket : Socket) : Bool :=
  socket.direction = .input

/-- Whether signals leave here. -/
def isOutput (socket : Socket) : Bool :=
  socket.direction = .output

end Socket

end SynthGraph
