import PrototypeScan.Config.Setting
import PrototypeScan.Text.Split

/-!
Settings from environment variables. A name in upper or lower case, behind a common start, is the way to
a setting with two underscores for each point; a value is a truth value or a number if it reads as one.
-/
namespace PrototypeScan.Config.Environment

/-- The start of the names of variables that hold settings. -/
def marker : List Char := "protoguard__".toList

/-- Puts a point for every two underscores. -/
def pointed : List Char → List Char
  | '_' :: '_' :: cs => '.' :: pointed cs
  | c :: cs => c :: pointed cs
  | [] => []

/-- The key that the name of a variable stands for. -/
def key? (name : String) : Option String :=
  let lower := name.toList.map Char.toLower
  if marker.isPrefixOf lower then some (String.ofList (pointed (lower.drop marker.length))) else none

/-- The integer of 64 bits that a text denotes. -/
def integer? (text : List Char) : Option Int :=
  let (negative, digits) := match text with
    | '-' :: ds => (true, ds)
    | '+' :: ds => (false, ds)
    | ds => (false, ds)
  if digits.all Char.isDigit then
    (Decimal.ofDigits 10 digits).bind fun n =>
      if n < twoTo 63 || (negative && n = twoTo 63) then some (if negative then -n else n) else none
  else none

/-- The keys whose values are lists with commas between the items. -/
def listKeys : List String := ["scan.exclude_patterns", "scan.sensitive_properties"]

/-- The setting that a value stands for under a key. -/
def setting (key value : String) : Setting :=
  let cs := value.toList
  let lower := String.ofList (cs.map Char.toLower)
  if lower = "true" then .bool true
  else if lower = "false" then .bool false
  else match integer? cs, Decimal.readSigned? cs with
    | some i, _ => .integer i
    | none, some x => .real x
    | none, none =>
      if listKeys.contains key then .list ((Text.splitOn ',' value).map .text) else .text value

/-- The settings in an environment. -/
def settings (environment : List (String × String)) : List (String × Setting) :=
  environment.filterMap fun (name, value) => (key? name).map fun key => (key, setting key value)

end PrototypeScan.Config.Environment
