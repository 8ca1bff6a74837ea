import CrateYard.CommandLine.Run
import CrateYard.Machine.Description

/-! The command line. The machine that it runs on is described on standard input. -/

def main (args : List String) : IO UInt32 := do
  let text ← (← IO.getStdin).readToEnd
  let outcome := CrateYard.CommandLine.run (.ofText text) args
  (← IO.getStdout).putStr outcome.stdout
  (← IO.getStderr).putStr outcome.stderr
  return outcome.exit.toUInt32
