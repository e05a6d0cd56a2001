import VersionInfo.CommandLine.Answer

/-!
# The program

Writes the answer to its arguments and ends with its exit code.
-/

/-- Answers the command line. -/
def main (arguments : List String) : IO UInt32 := do
  let answer := VersionInfo.CommandLine.answer arguments
  IO.print answer.output
  return answer.exitCode.toUInt32
