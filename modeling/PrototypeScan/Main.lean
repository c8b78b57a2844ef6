import PrototypeScan.CommandLine.Run
import PrototypeScan.CommandLine.Snapshot
import PrototypeScan.Json.Reader

/-!
The program: it takes a command line, and the directory and the environment to run in as one line of JSON
from standard input.
-/
namespace PrototypeScan.Main

/-- Prints what a run gives, and ends with its exit code. -/
def report (r : RunResult) : IO UInt32 := do
  IO.print r.output
  IO.eprint r.errors
  return r.code.toUInt32

end PrototypeScan.Main

def main (arguments : List String) : IO UInt32 := do
  match PrototypeScan.Json.read (← (← IO.getStdin).getLine) with
  | .ok v =>
    let s := PrototypeScan.Snapshot.ofJson v
    PrototypeScan.Main.report (PrototypeScan.CommandLine.run s.workspace s.environment arguments)
  | .error e =>
    PrototypeScan.Main.report (PrototypeScan.CommandLine.refused ("Standard input: " ++ e.message))
