import Spoils.CommandLine

/-! The program. -/
open Spoils

def readText (path : String) : IO (Option String) := do
  try return some (← IO.FS.readFile path) catch _ => return none

/-- Reads the files that the arguments name and reports on them. -/
def main (args : List String) : IO UInt32 := do
  let environment ← IO.getEnv "LOOT_CORE_CONFIG"
  let files :=
    match CommandLine.parse args environment with
    | .ok i => i.files
    | .error _ => []
  let texts ← files.mapM fun path => return (path, ← readText path)
  let report := CommandLine.run args environment fun path => (texts.lookup path).join
  (← IO.getStdout).putStr report.output
  let errors ← IO.getStderr
  report.complaints.forM fun line => errors.putStr (line ++ "\n")
  return .ofNat report.code
