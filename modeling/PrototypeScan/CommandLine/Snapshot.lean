import PrototypeScan.Files.Json

/-!
A directory and an environment as one JSON object: what is in the directory under `files`, and variables
with their values under `env`.
-/
namespace PrototypeScan

/-- What a run starts from. -/
structure Snapshot where
  workspace : Workspace
  environment : List (String × String)

namespace Snapshot

/-- Variables with their values; one that is null is not set. -/
def variablesOfJson : Json → List (String × String)
  | .object entries => entries.filterMap fun (name, v) => v.asString?.map fun s => (name, s)
  | _ => []

def ofJson (v : Json) : Snapshot where
  workspace := ⟨((v.get? "files").map FileTree.ofJson).getD .empty⟩
  environment := ((v.get? "env").map variablesOfJson).getD []

end Snapshot

end PrototypeScan
