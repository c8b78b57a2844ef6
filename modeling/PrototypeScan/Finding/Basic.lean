/-!
Findings: what a rule reports of a node, and how findings are ordered and told apart.
-/
namespace PrototypeScan

/-- The line of a finding. -/
inductive Line where
  | known (n : UInt32)
  | unknown
  deriving DecidableEq, Repr, Hashable

namespace Line

def ofOption : Option UInt32 → Line
  | some n => known n
  | none => unknown

def number? : Line → Option UInt32
  | known n => some n
  | unknown => none

def text : Line → String
  | known n => toString n.toNat
  | unknown => "unknown"

/-- Lines by number, the unknown one last. -/
def compare : Line → Line → Ordering
  | known a, known b => Ord.compare a.toNat b.toNat
  | known _, unknown => .lt
  | unknown, known _ => .gt
  | unknown, unknown => .eq

/-- Whether a line may stand before another one in a report. -/
def le (a b : Line) : Bool := a.compare b != .gt

end Line

/-- How much a finding matters, the most severe first. -/
inductive Severity where
  | critical
  | high
  | medium
  | low
  | info
  deriving DecidableEq, Repr, Hashable

namespace Severity

def all : List Severity := [critical, high, medium, low, info]

def text : Severity → String
  | critical => "critical"
  | high => "high"
  | medium => "medium"
  | low => "low"
  | info => "info"

def ofText? (s : String) : Option Severity := all.find? (·.text = s)

/-- The severity where none is stated. -/
def default : Severity := high

def rank : Severity → Nat
  | critical => 0
  | high => 1
  | medium => 2
  | low => 3
  | info => 4

def compare (a b : Severity) : Ordering := Ord.compare a.rank b.rank

end Severity

/-- A reported risk. -/
structure Finding where
  ruleName : String
  line : Line
  column : Option UInt32
  propertyName : String
  snippet : String
  severity : Severity
  deriving DecidableEq, Repr

namespace Finding

/-- What two equal findings have in common. The column and the severity do not count. -/
structure Key where
  ruleName : String
  line : Line
  propertyName : String
  snippet : String
  deriving DecidableEq, Repr, Hashable

def key (f : Finding) : Key := ⟨f.ruleName, f.line, f.propertyName, f.snippet⟩

/-- Strings by their bytes, which for well-formed text is the order by code points. -/
def compareText (a b : String) : Ordering := Ord.compare a b

/-- By line, then rule, then property. -/
def compare (a b : Finding) : Ordering :=
  (a.line.compare b.line).then
    ((compareText a.ruleName b.ruleName).then (compareText a.propertyName b.propertyName))

/-- The line of a finding in a report. -/
def text (f : Finding) : String :=
  "Line " ++ f.line.text ++ ": Access to '" ++ f.propertyName ++ "' → " ++ f.snippet

end Finding

end PrototypeScan
