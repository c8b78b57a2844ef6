import PrototypeScan.Finding.Basic
import PrototypeScan.Json.Reader
import PrototypeScan.Json.Record
import PrototypeScan.Number.Binary64

/-!
Findings as JSON objects. Writing leaves the column out where there is none. Reading takes a missing
column for none and a missing severity for the default, skips keys that it does not know, and refuses
keys given twice. In a text, the values of keys that are not known are skipped as they are read.
-/
namespace PrototypeScan

namespace Line

def toJson : Line → Json
  | known n => .ofNat n.toNat
  | unknown => .string "unknown"

def ofJson? : Json → Option Line
  | .number (.integer i) => if 0 ≤ i ∧ i < twoTo 32 then some (.known (.ofNat i.toNat)) else none
  | .string s => if s = "unknown" then some .unknown else none
  | _ => none

end Line

namespace Severity

def toJson (s : Severity) : Json := .string s.text

def ofJson? (v : Json) : Option Severity := Json.choice? ofText? v

end Severity

namespace Finding

def toJson (f : Finding) : Json :=
  .object (
    [("rule_name", .string f.ruleName), ("line", f.line.toJson)] ++
    (f.column.toList.map fun c => ("column", Json.ofNat c.toNat)) ++
    [("property_name", .string f.propertyName), ("snippet", .string f.snippet),
      ("severity", f.severity.toJson)])

/-- The keys of a finding, in order. -/
def keys : List String :=
  ["rule_name", "line", "column", "property_name", "snippet", "severity"]

/-- A number of 32 bits. -/
def columnOfJson? : Json → Option UInt32
  | .number (.integer i) => if 0 ≤ i ∧ i < twoTo 32 then some (.ofNat i.toNat) else none
  | _ => none

def ofJson? (v : Json) : Option Finding := do
  let parts ← Json.parts? keys v
  let ruleName ← Json.part? parts "rule_name" Json.asString? none
  let line ← Json.part? parts "line" Line.ofJson? none
  let column ← Json.part? parts "column" (Json.nullable? columnOfJson?) (some none)
  let propertyName ← Json.part? parts "property_name" Json.asString? none
  let snippet ← Json.part? parts "snippet" Json.asString? none
  let severity ← Json.part? parts "severity" Severity.ofJson? (some .default)
  return ⟨ruleName, line, column, propertyName, snippet, severity⟩

def listOfJson? (v : Json) : Option (List Finding) := v.asArray?.bind (·.mapM ofJson?)

def listToJson (fs : List Finding) : Json := .array (fs.map toJson)

/-- Reads the text of a finding. -/
def read? (text : String) : Option Finding := (Json.readRecords 0 keys text).toOption.bind ofJson?

/-- Reads the text of a list of findings. -/
def readList? (text : String) : Option (List Finding) :=
  (Json.readRecords 1 keys text).toOption.bind listOfJson?

end Finding

end PrototypeScan
