import PrototypeScan.Number.Binary64

/-!
The trees that rules look at. A node has a kind, an ordered list of named fields and perhaps the place
where it starts; a field that holds a node or a list of nodes is an edge to children, every other one is
an attribute. Reading a field that is not there gives an absent value, so a rule decides for itself what
a missing field means.
-/
namespace PrototypeScan

/-- Where a node starts: the line from one, the column from zero. -/
structure Location where
  line : UInt32
  column : UInt32
  deriving DecidableEq, Repr

/-- What a field holds, over nodes of type `α`. -/
inductive Value (α : Type) where
  | node (n : α)
  | nodes (ns : List α)
  | string (s : String)
  | number (x : Binary64)
  | bool (b : Bool)
  | null
  | absent

/-- A node of a tree. -/
inductive Node where
  | mk (kind : String) (fields : List (String × Value Node)) (location : Option Location)

instance {α : Type} : Inhabited (Value α) := ⟨.absent⟩

instance : Inhabited Node := ⟨.mk "" [] none⟩

namespace Value

variable {α : Type}

def isAbsent : Value α → Bool
  | absent => true
  | _ => false

def asNode? : Value α → Option α
  | node n => some n
  | _ => none

def asString? : Value α → Option String
  | string s => some s
  | _ => none

def asBool? : Value α → Option Bool
  | bool b => some b
  | _ => none

def asNumber? : Value α → Option Binary64
  | number x => some x
  | _ => none

/-- The nodes a value holds, in order. -/
def children : Value α → List α
  | node n => [n]
  | nodes ns => ns
  | _ => []

def typeName : Value α → String
  | node _ => "node"
  | nodes _ => "node list"
  | string _ => "string"
  | number _ => "number"
  | bool _ => "boolean"
  | null => "null"
  | absent => "absent"

/-- Adds a node behind those a value holds; anything else makes way. -/
def withChild (v : Value α) (child : α) : Value α :=
  match v with
  | node n => nodes [n, child]
  | nodes ns => nodes (ns ++ [child])
  | _ => node child

@[simp] theorem isAbsent_withChild (v : Value α) (c : α) : (v.withChild c).isAbsent = false := by
  cases v <;> rfl

@[simp] theorem children_withChild (v : Value α) (c : α) :
    (v.withChild c).children = v.children ++ [c] := by
  cases v <;> simp [withChild, children]

end Value

/-! Lists of named entries, in which the first entry of a name counts. -/
namespace Fields

variable {β : Type}

/-- The entry called `name`. -/
def get? (name : String) : List (String × β) → Option β
  | [] => none
  | (n, v) :: rest => if n = name then some v else get? name rest

/-- Changes the entry called `name`, or adds one at the end. -/
def upsert (name : String) (change : Option β → β) : List (String × β) → List (String × β)
  | [] => [(name, change none)]
  | (n, v) :: rest =>
    if n = name then (n, change (some v)) :: rest else (n, v) :: upsert name change rest

/-- Takes out the entry called `name`. -/
def erase (name : String) : List (String × β) → List (String × β)
  | [] => []
  | (n, v) :: rest => if n = name then rest else (n, v) :: erase name rest

end Fields

namespace Node

def kind : Node → String
  | mk k _ _ => k

def fields : Node → List (String × Value Node)
  | mk _ fs _ => fs

def location : Node → Option Location
  | mk _ _ l => l

/-- A node of a kind, without fields and without a place. -/
def ofKind (kind : String) : Node := mk kind [] none

def withFields (n : Node) (fs : List (String × Value Node)) : Node := mk n.kind fs n.location

def withLocation (n : Node) (l : Location) : Node := mk n.kind n.fields (some l)

/-- Whether a node is of a kind. -/
def is (n : Node) (kind : String) : Bool := n.kind = kind

/-- The value of a field; absent when there is none. -/
def field (n : Node) (name : String) : Value Node := (Fields.get? name n.fields).getD .absent

/-- The node in a field that holds a single one. -/
def child? (n : Node) (name : String) : Option Node := (n.field name).asNode?

/-- Sets a field. A field keeps its place when its value is replaced, an absent value takes it out. -/
def setField (n : Node) (name : String) (v : Value Node) : Node :=
  n.withFields (if v.isAbsent then Fields.erase name n.fields
    else Fields.upsert name (fun _ => v) n.fields)

/-- Adds a child to a field: a single node becomes a list, and what is no node makes way. -/
def pushChild (n : Node) (name : String) (child : Node) : Node :=
  n.withFields (Fields.upsert name (fun v => (v.getD .absent).withChild child) n.fields)

/-- The children, field by field and in the order of each list. -/
def children (n : Node) : List Node := n.fields.flatMap (·.2.children)

/-- The children from the last to the first: the fields from the last one on, and each list from its end. -/
def childrenBackwards (n : Node) : List Node := n.fields.reverse.flatMap (·.2.children.reverse)

@[simp] theorem fields_withFields (n : Node) (fs : List (String × Value Node)) :
    (n.withFields fs).fields = fs := rfl

@[simp] theorem kind_withFields (n : Node) (fs : List (String × Value Node)) :
    (n.withFields fs).kind = n.kind := rfl

@[simp] theorem location_withFields (n : Node) (fs : List (String × Value Node)) :
    (n.withFields fs).location = n.location := rfl

mutual

/-- Whether two trees are alike: kinds, places, fields in order. Numbers compare by value, so a tree
with a NaN is not even like itself. -/
def alike : Node → Node → Bool
  | mk k fs l, mk k' fs' l' => k == k' && l == l' && fieldsAlike fs fs'

def fieldsAlike : List (String × Value Node) → List (String × Value Node) → Bool
  | [], [] => true
  | f :: fs, f' :: fs' => fieldAlike f f' && fieldsAlike fs fs'
  | _, _ => false

def fieldAlike : String × Value Node → String × Value Node → Bool
  | (n, v), (n', v') => n == n' && valueAlike v v'

def valueAlike : Value Node → Value Node → Bool
  | .node n, .node n' => n.alike n'
  | .nodes ns, .nodes ns' => listAlike ns ns'
  | .string s, .string s' => s == s'
  | .number x, .number y => x.same y
  | .bool b, .bool b' => b == b'
  | .null, .null => true
  | .absent, .absent => true
  | _, _ => false

def listAlike : List Node → List Node → Bool
  | [], [] => true
  | n :: ns, n' :: ns' => n.alike n' && listAlike ns ns'
  | _, _ => false

end

end Node

end PrototypeScan
