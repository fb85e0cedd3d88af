import SynthGraph.Number.Typed

namespace SynthGraph

/-!
# Command line arguments

A command line names one command with its file and its options.  Whatever the
rules below do not allow is refused as a whole, without saying why.
-/

/-- What a command line asks for. -/
inductive Command where
  /-- Load an instrument definition and compile it. -/
  | instrument (file : String)
  /-- Compile a graph file. -/
  | graph (file : String) (asSequence : Bool) (channel : Option UInt8)
  /-- Assemble a session from channel settings. -/
  | session
      (file : String)
      (bpm : Option Double)
      (granularity : Option UInt32)
      (sequences : Option String)
  /-- List all units. -/
  | units
  deriving Repr, DecidableEq

/-- A command line that was understood. -/
inductive Request where
  /-- Tell the version of the program. -/
  | version
  /-- Run a command and write documents on one line or over several. -/
  | run (compact : Bool) (command : Command)
  deriving Repr, DecidableEq

namespace Arguments

/-- Arguments by what they are: flags, options with their values, and all others. -/
structure Sorted where
  flags : List String
  options : List (String × String)
  operands : List String
  deriving Repr

/-- No arguments. -/
def Sorted.empty : Sorted :=
  ⟨[], [], []⟩

/-- A long argument without its dashes: its name, and its value if one is attached. -/
def splitLong (argument : List Char) : String × Option String :=
  match argument.dropWhile (· ≠ '=') with
  | [] => (String.ofList argument, none)
  | _ :: value => (String.ofList (argument.takeWhile (· ≠ '=')), some (String.ofList value))

/-- Whether an argument may be the value of the option before it. -/
def isValue (argument : String) : Bool :=
  match argument.toList with
  | '-' :: _ :: _ => false
  | _ => true

/-- Take a flag, which has no value and is given at most once. -/
def takeFlag (sorted : Sorted) (name : String) (value : Option String) : Option Sorted :=
  if value.isSome ∨ name ∈ sorted.flags then
    none
  else
    some { sorted with flags := sorted.flags ++ [name] }

/-- Take an option, which is given at most once. -/
def takeOption (sorted : Sorted) (name value : String) : Option Sorted :=
  if sorted.options.any (·.1 = name) then
    none
  else
    some { sorted with options := sorted.options ++ [(name, value)] }

/--
Sort arguments by the flags and options that are known.  An option has its value
attached or takes the next argument, and after two dashes everything is an
operand.
-/
def sort? (flags options : List String) (sorted : Sorted) : List String → Option Sorted
  | [] => some sorted
  | argument :: rest =>
      match argument.toList with
      | ['-', '-'] => some { sorted with operands := sorted.operands ++ rest }
      | '-' :: '-' :: long =>
          let (name, value) := splitLong long
          if name ∈ flags then
            match takeFlag sorted name value with
            | some sorted => sort? flags options sorted rest
            | none => none
          else if name ∈ options then
            match value, rest with
            | some value, rest =>
                match takeOption sorted name value with
                | some sorted => sort? flags options sorted rest
                | none => none
            | none, value :: rest =>
                if isValue value then
                  match takeOption sorted name value with
                  | some sorted => sort? flags options sorted rest
                  | none => none
                else
                  none
            | none, [] => none
          else
            none
      | '-' :: _ :: _ => none
      | _ => sort? flags options { sorted with operands := sorted.operands ++ [argument] } rest

/-- The value of an option. -/
def Sorted.value? (sorted : Sorted) (name : String) : Option String :=
  (sorted.options.find? (·.1 = name)).map Prod.snd

/-- The only operand, which has to be the name of a file. -/
def Sorted.file? (sorted : Sorted) : Option String :=
  match sorted.operands with
  | [file] => if file = "" then none else some file
  | _ => none

/-- The value of an option read by a rule, if the option is given. -/
def Sorted.read?
    {α : Type}
    (sorted : Sorted)
    (name : String)
    (read? : String → Option α) :
    Option (Option α) :=
  match sorted.value? name with
  | some value => (read? value).map some
  | none => some none

/-- A path is any text but the empty one. -/
def path? (text : String) : Option String :=
  if text = "" then none else some text

/-- A number of eight bits. -/
def uint8? (text : String) : Option UInt8 :=
  (Typed.naturalBelow? UInt8.size text).map UInt8.ofNat

/-- A number of 32 bits. -/
def uint32? (text : String) : Option UInt32 :=
  (Typed.naturalBelow? UInt32.size text).map UInt32.ofNat

/-- The flag that may stand before or after the name of the command. -/
def compactFlag : String := "compact"

/-- The command of a name with its arguments, and whether they ask for one line. -/
def command? (name : String) (arguments : List String) : Option (Bool × Command) := do
  if name = "instrument" then
    let sorted ← sort? [compactFlag] [] .empty arguments
    let file ← sorted.file?
    return (compactFlag ∈ sorted.flags, .instrument file)
  else if name = "graph" then
    let sorted ← sort? [compactFlag, "sequence"] ["channel"] .empty arguments
    let file ← sorted.file?
    let channel ← sorted.read? "channel" uint8?
    return (compactFlag ∈ sorted.flags, .graph file ("sequence" ∈ sorted.flags) channel)
  else if name = "session" then
    let sorted ← sort? [compactFlag] ["bpm", "granularity", "sequences"] .empty arguments
    let file ← sorted.file?
    let bpm ← sorted.read? "bpm" Typed.number?
    let granularity ← sorted.read? "granularity" uint32?
    let sequences ← sorted.read? "sequences" path?
    return (compactFlag ∈ sorted.flags, .session file bpm granularity sequences)
  else if name = "units" then
    let sorted ← sort? [compactFlag] [] .empty arguments
    if sorted.operands = [] then
      return (compactFlag ∈ sorted.flags, .units)
    else
      none
  else
    none

/-- Whether an argument asks for the version, alone or before other letters. -/
def asksVersion (argument : String) : Bool :=
  argument = "--version" || argument.startsWith "-V"

/-- What arguments ask for, given whether one line was asked for before. -/
def requestAfter? (compact : Bool) : List String → Option Request
  | [] => none
  | argument :: rest =>
      if asksVersion argument then
        some .version
      else if argument = "--" ++ compactFlag then
        if compact then none else requestAfter? true rest
      else
        (command? argument rest).map fun found => .run (compact || found.1) found.2

/-- What a command line asks for, if it is understood. -/
def request? (arguments : List String) : Option Request :=
  requestAfter? false arguments

end Arguments

end SynthGraph
