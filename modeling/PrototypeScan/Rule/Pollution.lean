import PrototypeScan.Rule.Basic

/-!
The pollution rule: an assignment whose target is a member with a sensitive name, written out as an
identifier or as a string. A computed name is a question of what the program does and no match.
-/
namespace PrototypeScan.Pollution

def ruleName : String := "js-prototype-pollution"

def description : String :=
  "Assignment to __proto__, constructor or prototype can alter behavior shared by every object"

/-- The names reported where nothing else is configured. -/
def defaultProperties : List String := ["__proto__", "constructor", "prototype"]

/-- Stands in a snippet for an object that is no plain identifier. -/
def placeholder : String := "obj"

/-- The member that a node assigns to. -/
def assignedMember? (n : Node) : Option Node :=
  if n.is "AssignmentExpression" then (n.child? "left").filter (·.is "MemberExpression") else none

/-- The name of the property that a member accesses, as far as it is written out: a string, or an
identifier where the member is known not to be computed. -/
def propertyName? (member : Node) : Option String :=
  (member.child? "property").bind fun property =>
    if property.is "Literal" then (property.field "value").asString?
    else if property.is "Identifier" && (member.field "computed").asBool? = some false then
      (property.field "name").asString?
    else none

/-- The sensitive name that a member accesses. -/
def accessed? (properties : List String) (member : Node) : Option String :=
  (propertyName? member).filter properties.contains

/-- The sensitive name that a node assigns to. -/
def sensitive? (properties : List String) (n : Node) : Option String :=
  (assignedMember? n).bind (accessed? properties)

/-- How a snippet calls the object of the member that a node assigns to. -/
def objectName (n : Node) : String :=
  ((((assignedMember? n).bind (·.child? "object")).filter (·.is "Identifier")).bind
    fun object => (object.field "name").asString?).getD placeholder

/-- The finding for a node. It stands where the property does. -/
def extract (properties : List String) (n : Node) : Finding :=
  let location := ((assignedMember? n).bind (·.child? "property")).bind (·.location)
  let name := (sensitive? properties n).getD ""
  { ruleName
    line := .ofOption (location.map (·.line))
    column := location.map (·.column)
    propertyName := name
    snippet := objectName n ++ "." ++ name
    severity := .high }

/-- The rule for a set of sensitive names. -/
def rule (properties : List String) : Rule where
  name := ruleName
  description := description
  severity := .high
  isMatch n := (sensitive? properties n).isSome
  extract := extract properties

end PrototypeScan.Pollution
