import DataSourceGen.Disk

/-!
# The command

Reads the arguments and the environment, runs the program on the files that it can reach, saves
what it changed, and shows what it says.
-/

open DataSourceGen

/-- Runs the program. -/
def main (arguments : List String) : IO UInt32 := do
  let texts := arguments.map String.toList
  let setting := (← IO.getEnv "LOG_LEVEL").map String.toList
  let tree ← match CommandLine.ofArguments texts with
    | .ok line => Disk.load line.request
    | .error _ => pure {}
  let run := runProgram texts setting tree
  Disk.save tree run.tree
  for line in run.log ++ run.errors do
    IO.eprintln (String.ofList line)
  IO.print (String.ofList run.output)
  return UInt32.ofNat run.exitCode
