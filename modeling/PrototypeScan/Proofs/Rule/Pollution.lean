import PrototypeScan.Proofs.Scan.Reference
import PrototypeScan.Rule.Pollution

/-!
What the pollution rule finds at a node: the finding for the member assigned to, its property and the name
of that, if the name is sensitive.
-/
namespace PrototypeScan.Pollution

/-- How a snippet calls the object of a member. -/
def objectText (member : Node) : String :=
  (((member.child? "object").filter (·.is "Identifier")).bind
    fun object => (object.field "name").asString?).getD placeholder

/-- The finding for an assignment to the property of a member. -/
def report (member property : Node) (name : String) : Finding where
  ruleName := ruleName
  line := .ofOption (property.location.map (·.line))
  column := property.location.map (·.column)
  propertyName := name
  snippet := objectText member ++ "." ++ name
  severity := .high

theorem findingsAt_rule (properties : List String) (n : Node) :
    Rule.findingsAt [rule properties] n =
      ((assignedMember? n).bind fun member => (member.child? "property").bind fun property =>
        ((propertyName? member).filter properties.contains).map (report member property)).toList := by
  cases hmember : assignedMember? n with
  | none => simp [Rule.findingsAt, rule, sensitive?, hmember]
  | some member =>
    cases hproperty : member.child? "property" with
    | none => simp [Rule.findingsAt, rule, sensitive?, accessed?, propertyName?, hmember, hproperty]
    | some property =>
      cases hname : (propertyName? member).filter properties.contains with
      | none =>
        simp [Rule.findingsAt, rule, sensitive?, accessed?, hmember, hproperty, hname]
      | some name =>
        simp [Rule.findingsAt, rule, sensitive?, accessed?, extract, objectName, hmember, hproperty, hname,
          report, objectText]

/-- A tree that assigns to a property behind a dot. -/
def assignment (object name : String) (line : UInt32) : Node :=
  let identifier (name : String) (location : Option Location) : Node :=
    .mk "Identifier" [("name", .string name)] location
  .mk "AssignmentExpression" [
    ("left", .node (.mk "MemberExpression" [
      ("computed", .bool false),
      ("object", .node (identifier object none)),
      ("property", .node (identifier name (some ⟨line, 0⟩)))] none))] none

/-- A tree with three such assignments, the last one a repetition. -/
def assignments : Node :=
  .mk "Program" [("body", .nodes [
    assignment "o" "prototype" 2, assignment "p" "constructor" 1, assignment "o" "prototype" 2])] none

end PrototypeScan.Pollution
