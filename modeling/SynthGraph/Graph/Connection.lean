import SynthGraph.Graph.Patch

namespace SynthGraph

/-!
# Connecting two sockets

Connecting toggles the patch between two sockets, or is refused for one of the
causes listed here.
-/

/-- What connecting two sockets did. -/
inductive Change where
  | connected
  | disconnected
  deriving Repr, DecidableEq

/-- The name of a change. -/
def Change.name : Change → String
  | .connected => "connected"
  | .disconnected => "disconnected"

/-- Why two sockets cannot be connected. -/
inductive ConnectionError where
  | moduleNotFound (module : ModuleId)
  | unknownSocket (endpoint : Endpoint)
  | selfConnection
  | incompatibleTypes (source target : Signal)
  | directionMismatch (direction : Direction)
  deriving Repr, DecidableEq

namespace ConnectionError

/-- The full account of a refusal. -/
def message : ConnectionError → String
  | moduleNotFound module =>
      "module " ++ ModuleId.label module ++ " does not exist"
  | unknownSocket endpoint =>
      "module " ++ ModuleId.label endpoint.module ++ " has no socket named '"
        ++ endpoint.socket ++ "'"
  | selfConnection => "cannot connect a socket to itself"
  | incompatibleTypes source target =>
      "cannot connect " ++ source.name ++ " to " ++ target.name
  | directionMismatch direction =>
      "cannot connect two " ++ direction.name ++ " sockets"

/-- The advice for two signal types that do not fit. -/
def typeWarning : Signal → Signal → String
  | .clock, .trigger => "Clock needs a pulse before it can trigger notes"
  | .frequency, .panning => "Frequency needs a panning unit before it can pan"
  | .audio, _ => "Audio can only be patched into audio inputs"
  | _, .audio => "Audio can only be patched into audio inputs"
  | _, _ => "Incompatible signal types"

/-- The short account of a refusal for an editor. -/
def warning : ConnectionError → String
  | moduleNotFound _ => "Module no longer exists"
  | unknownSocket _ => "Unknown socket"
  | selfConnection => "Cannot connect a socket to itself"
  | incompatibleTypes source target => typeWarning source target
  | directionMismatch .input => "Cannot connect two inputs"
  | directionMismatch .output => "Cannot connect two outputs"

end ConnectionError

/-- Refuse to join two signal types that differ. -/
def Signal.validate (source target : Signal) : Except ConnectionError Unit :=
  if source.connects target then
    .ok ()
  else
    .error (.incompatibleTypes source target)

end SynthGraph
