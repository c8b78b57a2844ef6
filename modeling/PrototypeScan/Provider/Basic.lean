import PrototypeScan.Config.Basic
import PrototypeScan.Json.Cursor
import PrototypeScan.Program.Start

/-!
Where syntax trees come from, and why there may be none.
-/
namespace PrototypeScan

/-- Why a program that makes trees cannot be used. -/
inductive Unavailable where
  | notFound (executable : String)
  | notStarted (executable : String) (reason : FileError)
  /-- how the program ended when it was asked for its version -/
  | noVersion (executable : String) (ending : Shell.Ending)
  /-- the program has no package that reads JavaScript -/
  | noPackage
  /-- what the program prints cannot be read to its end -/
  | lost (reason : FileError)
  deriving DecidableEq, Repr

namespace Unavailable

/-- What is wrong. -/
def cause : Unavailable → String
  | notFound executable =>
    "'" ++ executable ++ "' not found. Install Node.js or set parser.node_executable"
  | notStarted executable reason => "failed to start '" ++ executable ++ "': " ++ reason.message
  | noVersion executable ending => "'" ++ executable ++ " --version' exited with " ++ ending.text
  | noPackage =>
    "the espree package is not installed. Run 'npm install espree' or set parser.node_modules_dir"
  | lost reason => reason.message

/-- The message of an error; one in the middle of a run is told apart from those at its start. -/
def message (u : Unavailable) : String :=
  match u with
  | lost _ => "IO error: " ++ u.cause
  | _ => "Parser frontend unavailable: " ++ u.cause

/-- Why a program was not started. -/
def ofFileError (executable : String) : FileError → Unavailable
  | .missing => notFound executable
  | e => notStarted executable e

end Unavailable

/-- Why there is no tree of a source. -/
inductive ParseError where
  | failed (path reason : String)
  | unavailable (reason : Unavailable)
  | timeout (seconds : Nat)
  | invalidJson (path : String) (e : Json.Error)

namespace ParseError

def message : ParseError → String
  | failed path reason => "Failed to parse " ++ path ++ ": " ++ reason
  | unavailable reason => reason.message
  | timeout seconds => "Parser timed out after " ++ toString seconds ++ " seconds"
  | invalidJson path e => "Invalid ESTree JSON in " ++ path ++ ": " ++ e.message

end ParseError

/-- What makes syntax trees of sources, with what it finds in a workspace. -/
structure Provider where
  name : String
  /-- whether trees can be made at all -/
  check : Workspace → Except ParseError Unit := fun _ => .ok ()
  /-- the tree of the source at a path -/
  parse : Workspace → (path source : String) → ScriptKind → Except ParseError (Value Node)

end PrototypeScan
