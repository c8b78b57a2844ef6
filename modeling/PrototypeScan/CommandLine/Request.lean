import PrototypeScan.Config.Basic

/-!
What a command line asks for.
-/
namespace PrototypeScan

inductive OutputFormat where
  | text
  | json
  deriving DecidableEq, Repr

/-- The format for a name. -/
def OutputFormat.ofName? (name : String) : Option OutputFormat :=
  if name = "text" then some text else if name = "json" then some json else none

/-- The frontend for a name on the command line. -/
def Frontend.ofName? (name : String) : Option Frontend :=
  if name = "tree-sitter" then some treeSitter else if name = "espree" then some espree else none

/-- What to scan, and how. -/
structure ScanRequest where
  paths : List String
  frontend : Option Frontend
  preParsed : Bool
  failOnFindings : Bool
  deriving DecidableEq, Repr

inductive Command where
  | scan (r : ScanRequest)
  | rules
  deriving DecidableEq, Repr

structure Request where
  format : OutputFormat
  verbose : Bool
  quiet : Bool
  config : Option String
  command : Command
  deriving DecidableEq, Repr

end PrototypeScan
