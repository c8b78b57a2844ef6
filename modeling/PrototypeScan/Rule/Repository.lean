import PrototypeScan.Rule.Pollution
import PrototypeScan.Text.Escaped

/-!
The rules of a scan, in the order in which they apply.
-/
namespace PrototypeScan

structure Repository where
  rules : List Rule

namespace Repository

def empty : Repository := ⟨[]⟩

/-- The pollution rule for the given names. -/
def ofProperties (properties : List String) : Repository := ⟨[Pollution.rule properties]⟩

def default : Repository := ofProperties Pollution.defaultProperties

def add (r : Repository) (rule : Rule) : Repository := ⟨r.rules ++ [rule]⟩

def size (r : Repository) : Nat := r.rules.length

/-- The first rule of a name. -/
def find? (r : Repository) (name : String) : Option Rule := r.rules.find? (·.name = name)

/-- The names and severities of the rules. -/
def summary (r : Repository) : String :=
  let entry (rule : Rule) : String :=
    "Rule \x7b name: " ++ Text.escaped rule.name ++ ", severity: " ++ rule.severity.text.capitalize ++
      " \x7d"
  "RuleRepository \x7b rules: [" ++ ", ".intercalate (r.rules.map entry) ++ "] \x7d"

end Repository

end PrototypeScan
