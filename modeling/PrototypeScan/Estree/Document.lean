import PrototypeScan.Json.Reader
import PrototypeScan.Tree.Basic

/-!
ESTree documents as trees for rules. An object with a string under `type` is a node of that kind; its
`loc.start` is the place, and all other keys are fields. Objects without a type are left out, as is
everything in arrays that is no node.
-/
namespace PrototypeScan.Estree

/-- The largest number of 32 bits. -/
def max32 : Nat := twoTo 32 - 1

/-- The place where a `loc` entry says that a node starts. A line is needed; a column that is missing is
zero, and one that is too large the largest there is. -/
def startLocation? (loc : Json) : Option Location := do
  let start ← loc.get? "start"
  let line ← (start.get? "line").bind (·.asNat?)
  let column := ((start.get? "column").bind (·.asNat?)).getD 0
  if line ≤ max32 then some ⟨.ofNat line, .ofNat (min column max32)⟩ else none

/-- The kind of an object that is a node. -/
def kind? (entries : List (String × Json)) : Option String :=
  (Json.entry? "type" entries).bind (·.asString?)

mutual

/-- The value for a JSON value. -/
def value : Json → Value Node
  | .object entries => match kind? entries with
    | some kind => .node (addEntries (Node.ofKind kind) entries)
    | none => .absent
  | .array items => .nodes (nodes items)
  | .string s => .string s
  | .number n => .number n.toBinary64
  | .bool b => .bool b
  | .null => .null

/-- A node with the entries of its object added. -/
def addEntries (n : Node) : List (String × Json) → Node
  | [] => n
  | e :: es => addEntries (addEntry n e) es

def addEntry (n : Node) : String × Json → Node
  | (key, v) =>
    if key = "type" then n
    else if key = "loc" then ((startLocation? v).map n.withLocation).getD n
    else n.setField key (value v)

/-- The nodes among the items of an array. -/
def nodes : List Json → List Node
  | [] => []
  | v :: vs => match value v with
    | .node n => n :: nodes vs
    | _ => nodes vs

end

/-- Reads a document. -/
def read (text : String) : Except Json.Error (Value Node) := (Json.read text).map value

def readBytes (bytes : List UInt8) : Except Json.Error (Value Node) :=
  (Json.readBytes bytes).map value

end PrototypeScan.Estree
