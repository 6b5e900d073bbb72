import LongMatch.Command
/-!
# LongMatch.Main: the command line

`longmatch [FILE]` lists the long-distance matches in a file, or in a sample without one.
-/

namespace LongMatch.Command

/-- Prints what a run leaves behind and gives its exit code. -/
def print (outcome : Outcome) : IO UInt32 := do
  for line in outcome.output do
    IO.println line
  for line in outcome.errors do
    IO.eprintln line
  return outcome.exitCode.toUInt32

/-- Prints the result of a run. A fault has a line and an exit code of its own. -/
def conclude : Except Fault Outcome → IO UInt32
  | .ok outcome => print outcome
  | .error fault => do
    IO.eprintln ("fault: " ++ reprStr fault)
    return 101

/-- Reads what the arguments name: the first one is a file. -/
def readSource : List String → IO Source
  | [] => return .unnamed
  | path :: _ => do
    try
      return .bytes (← IO.FS.readBinFile path).data
    catch
      | .noFileOrDirectory .. => return .missing
      | failure => throw failure

end LongMatch.Command

open LongMatch in
def main (arguments : List String) : IO UInt32 := do
  let source ← Command.readSource arguments
  Command.conclude (Command.run source)
