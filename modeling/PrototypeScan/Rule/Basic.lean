import PrototypeScan.Finding.Basic
import PrototypeScan.Tree.Basic

/-!
Rules: structural checks that look at one node and the fields below it. Some report nodes by their kind, and any
rule can go under another name.
-/
namespace PrototypeScan

/-- A named check. What it extracts counts for the nodes that it matches. -/
structure Rule where
  name : String
  description : String
  severity : Severity
  isMatch : Node → Bool
  extract : Node → Finding

namespace Rule

/-- Stands for every kind. -/
def anyKind : String := "*"

/-- Reports the nodes of a kind, with the name that they have. -/
def ofKind (name kind : String) (severity : Severity) : Rule where
  name := name
  description := ""
  severity := severity
  isMatch n := kind = anyKind || n.is kind
  extract n :=
    { ruleName := name
      line := .ofOption (n.location.map (·.line))
      column := n.location.map (·.column)
      propertyName := n.kind
      snippet := ((n.field "name").asString?).getD ""
      severity := severity }

/-- The same check as `r` under another name, without its description and with the severity that holds
where none is stated. -/
def renamed (r : Rule) (name : String) : Rule where
  name := name
  description := ""
  severity := .default
  isMatch := r.isMatch
  extract n := { r.extract n with ruleName := name }

end Rule

end PrototypeScan
