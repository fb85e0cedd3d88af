import SynthGraph.CommandLine.Basic

namespace SynthGraph

/-!
# The program

Files are read here, and nothing is decided here.
-/

/-- The contents of a file, if it can be read. -/
def readContents (file : String) : IO (Option ByteArray) := do
  try
    return some (← IO.FS.readBinFile file)
  catch _ =>
    return none

/-- The contents of several files by name. -/
def readAll (names : List String) : IO Files := do
  let contents ← names.mapM fun name => return (name, ← readContents name)
  return fun name => (contents.find? (·.1 = name)).bind Prod.snd

end SynthGraph

/-- Read the files that the arguments name, run the program and print what it comes to. -/
def main (arguments : List String) : IO UInt32 := do
  let files ← SynthGraph.readAll (SynthGraph.CommandLine.files arguments)
  match SynthGraph.CommandLine.run files arguments with
  | .printed text =>
      IO.print text
      return 0
  | .failed cause =>
      IO.eprintln ("Error: " ++ cause.message)
      return 1
  | .refused =>
      IO.eprintln "Usage: patchbay [OPTIONS] <COMMAND>"
      return 2
