import PrototypeScan.Concrete.Cursor
import PrototypeScan.Script.Basic
import PrototypeScan.Text.Split
import PrototypeScan.Text.Units
import PrototypeScan.Tree.Basic
import PrototypeScan.JavaScript.Layout
import PrototypeScan.JavaScript.Literal.Number
import PrototypeScan.JavaScript.Literal.Quoted

/-!
Concrete trees of JavaScript as trees for rules, in the shape that ESTree documents have. Identifiers and
literals become leaves, parentheses give way to what is in them, comments are left out, and every other
named node keeps its children under their fields. `Estree.result?` says so by recursion over the concrete
tree; `Estree.build` does it with a cursor and a stack of unfinished nodes, so that the depth of a source
costs no stack.
-/
namespace PrototypeScan.JavaScript.Estree
open Text Concrete

/-- A source, as the conversion needs it. -/
structure Source where
  chars : Array Char
  sourceType : SourceType

def identifierKinds : List String := [
  "identifier", "property_identifier", "shorthand_property_identifier",
  "shorthand_property_identifier_pattern", "statement_identifier", "undefined"]

/-- The kinds whose name is not made from their parts. -/
def renamedKinds : List (String × String) := [
  ("assignment_expression", "AssignmentExpression"),
  ("augmented_assignment_expression", "AssignmentExpression"),
  ("subscript_expression", "MemberExpression"),
  ("lexical_declaration", "VariableDeclaration"),
  ("statement_block", "BlockStatement"),
  ("arrow_function", "ArrowFunctionExpression"),
  ("function_expression", "FunctionExpression"),
  ("object", "ObjectExpression"),
  ("array", "ArrayExpression"),
  ("pair", "Property"),
  ("this", "ThisExpression"),
  ("super", "Super")]

def parenthesized : String := "parenthesized_expression"

/-- The parts of a kind with their first letters raised. -/
def joined (kind : String) : String :=
  String.ofList ((parts '_' kind.toList).flatMap fun
    | [] => []
    | c :: rest => c.toUpper :: rest)

/-- The kind of a node in the tree for rules. -/
def kindOf (kind : String) : String := (Fields.get? kind renamedKinds).getD (joined kind)

/-- The largest number of 32 bits, where a number has more. -/
def clamp32 (n : Nat) : UInt32 := .ofNat (min n 0xFFFFFFFF)

/-- The place of a point, given the units between the start of its line and it. -/
def locationOf (p : Point) (units : Nat) : Location := ⟨clamp32 (p.row + 1), clamp32 units⟩

def literalKinds : List String := ["string", "number", "true", "false", "null", "regex"]

/-- The value of a literal; absent for the kinds that have none. -/
def literalValue (kind text : String) : Value Node :=
  if kind = "string" then .string (Quoted.decode text)
  else if kind = "number" then ((NumberLiteral.value? text).map .number).getD .absent
  else if kind = "true" then .bool true
  else if kind = "false" then .bool false
  else if kind = "null" then .null
  else .absent

/-- The name of a private property without its marks. -/
def privateName (text : String) : String := String.ofList (text.toList.dropWhile (· = '#'))

def privateKind : String := "private_property_identifier"

/-- Whether nodes of a kind become leaves, whatever is below them. -/
def isLeaf (kind : String) : Bool :=
  identifierKinds.contains kind || kind = privateKind || literalKinds.contains kind

/-- The leaf for a node of such a kind. -/
def leaf (kind text : String) (l : Location) : Node :=
  if identifierKinds.contains kind then
    ((Node.ofKind "Identifier").setField "name" (.string text)).withLocation l
  else if kind = privateKind then
    ((Node.ofKind "PrivateIdentifier").setField "name" (.string (privateName text))).withLocation l
  else
    (((Node.ofKind "Literal").setField "value" (literalValue kind text)).setField "raw"
      (.string text)).withLocation l

/-- A node before its children are added, with the fields that its kind presets. -/
def opened (source : Source) (kind : String) (l : Location) : Node :=
  let n := (Node.ofKind (kindOf kind)).withLocation l
  if kind = "program" then n.setField "sourceType" (.string source.sourceType.text)
  else if kind = "assignment_expression" then n.setField "operator" (.string "=")
  else if kind = "member_expression" then n.setField "computed" (.bool false)
  else if kind = "subscript_expression" then n.setField "computed" (.bool true)
  else n

/-- The field of children that the grammar puts under none. -/
def unnamedField (kind : String) : String :=
  if kind = "program" || kind = "statement_block" || kind = "class_body" then "body"
  else if kind = "expression_statement" then "expression"
  else "children"

/-- The field under which a child is stored. -/
def fieldFor (parent : Node) (unnamed : String) : Option String → String
  | none => unnamed
  | some "index" => if parent.is "MemberExpression" then "property" else "index"
  | some name => name

/-! By recursion. -/

/-- The place where a concrete node starts. -/
def location (source : Source) (p : Point) : Location :=
  locationOf p (unitsBetween source.chars p.lineStart p.offset)

mutual

/-- What a concrete node gives: nothing for one that may stand anywhere and for a token without a name,
a leaf for an identifier or a literal, the first result inside for parentheses, otherwise a node with the
results of its children under their fields. -/
def result? (source : Source) : Concrete → Option Node
  | .node l cs =>
    if l.extra || !l.named then none
    else if l.kind = parenthesized then firstResult? source cs
    else if isLeaf l.kind then
      some (leaf l.kind ((Concrete.node l cs).text source.chars) (location source l.start))
    else
      some (filled source (unnamedField l.kind) (opened source l.kind (location source l.start)) cs)

/-- A node with the results of `cs` added. A token without a name that stands under a field sets that
field to its text. -/
def filled (source : Source) (unnamed : String) (n : Node) : List Concrete → Node
  | [] => n
  | c :: cs =>
    let n' := match result? source c with
      | some child => n.pushChild (fieldFor n unnamed c.label.field) child
      | none =>
        if c.label.extra || c.label.named then n
        else match c.label.field with
          | some name => n.setField name (.string (c.text source.chars))
          | none => n
    filled source unnamed n' cs

def firstResult? (source : Source) : List Concrete → Option Node
  | [] => none
  | c :: cs => (result? source c).orElse fun _ => firstResult? source cs

end

/-! With a cursor. -/

/-- A node that is not finished: one whose children are being added, or parentheses, which pass on the
first node found in them. -/
inductive Frame where
  | element (node : Node) (field : Option String) (unnamed : String)
  | transparent (field : Option String) (inner : Option Node)

/-- The unfinished nodes, the innermost first, the finished root, and where columns have been counted
to. -/
structure Builder where
  frames : List Frame
  root : Option Node
  counter : UnitCounter

namespace Builder

def start : Builder := ⟨[], none, .start⟩

/-- Adds a finished node to the innermost unfinished one; without one it is the root. -/
def attach (b : Builder) (field : Option String) (child : Node) : Builder :=
  match b.frames with
  | [] => { b with root := some child }
  | .element n f unnamed :: rest =>
    { b with
      frames := .element (n.pushChild (fieldFor n unnamed field) child) f unnamed :: rest }
  | .transparent f inner :: rest =>
    { b with frames := .transparent f (inner.or (some child)) :: rest }

/-- Finishes the innermost node. -/
def close (b : Builder) : Builder :=
  match b.frames with
  | [] => b
  | .element n field _ :: rest => ({ b with frames := rest } : Builder).attach field n
  | .transparent field inner :: rest => match inner with
    | some n => ({ b with frames := rest } : Builder).attach field n
    | none => { b with frames := rest }

/-- Sets the field under which a token stands to its text. -/
def setText (b : Builder) (source : Source) (token : Concrete) : Builder :=
  match token.label.field, b.frames with
  | some name, .element n f unnamed :: rest =>
    let text := token.text source.chars
    { b with frames := .element (n.setField name (.string text)) f unnamed :: rest }
  | _, _ => b

/-- The place of a point, counted on from the last one. -/
def locate (b : Builder) (source : Source) (p : Point) : Location × Builder :=
  let counter := b.counter.moveTo source.chars p.lineStart p.offset
  (locationOf p counter.counted, { b with counter })

/-- Comes to a concrete node. Yields whether its children are to be visited, in which case a frame has
been opened for it. -/
def enter (b : Builder) (source : Source) (c : Concrete) : Bool × Builder :=
  let l := c.label
  if l.extra then (false, b)
  else if !l.named then (false, b.setText source c)
  else
    let (place, b) := b.locate source l.start
    if l.kind = parenthesized then
      (true, { b with frames := .transparent l.field none :: b.frames })
    else if isLeaf l.kind then (false, b.attach l.field (leaf l.kind (c.text source.chars) place))
    else
      let frame := .element (opened source l.kind place) l.field (unnamedField l.kind)
      (true, { b with frames := frame :: b.frames })

end Builder

/-- Whether the conversion has come to a node, or is done with one and looks for the next. -/
inductive Phase where
  | arriving
  | leaving
  deriving DecidableEq, Repr

/-- The conversion at work: the cursor on the concrete tree and what has been built so far. -/
structure Progress where
  phase : Phase
  cursor : Cursor
  builder : Builder

namespace Progress

def start (c : Concrete) : Progress := ⟨.arriving, .start c, .start⟩

/-- The next move; none once the cursor is done with the root. A frame is finished when the cursor comes
back to its node, or at once if that node has no children. -/
def step? (source : Source) (p : Progress) : Option Progress :=
  match p.phase with
  | .arriving => match p.builder.enter source p.cursor.node with
    | (false, b) => some ⟨.leaving, p.cursor, b⟩
    | (true, b) => match p.cursor.firstChild? with
      | some k => some ⟨.arriving, k, b⟩
      | none => some ⟨.leaving, p.cursor, b.close⟩
  | .leaving => match p.cursor.nextSibling? with
    | some k => some ⟨.arriving, k, p.builder⟩
    | none => p.cursor.parent?.map fun k => ⟨.leaving, k, p.builder.close⟩

/-- A bound for the moves that are still to come. -/
def remaining (p : Progress) : Nat :=
  match p.phase with
  | .arriving => 2 * (p.cursor.node.size + p.cursor.sizeBehind) + p.cursor.depth
  | .leaving => 2 * p.cursor.sizeBehind + p.cursor.depth + 1

theorem remaining_of_step? {source : Source} {p p' : Progress} (h : p.step? source = some p') :
    p'.remaining < p.remaining := by
  obtain ⟨phase, k, b⟩ := p
  have hs := Concrete.size_eq k.node
  cases phase with
  | arriving =>
    simp only [step?] at h
    split at h
    · obtain rfl := Option.some.inj h
      simp only [remaining]
      omega
    · split at h <;> obtain rfl := Option.some.inj h
      · next hk =>
        have := Cursor.sizeBehind_of_firstChild? hk
        simp only [remaining]
        omega
      · simp only [remaining]
        omega
  | leaving =>
    simp only [step?] at h
    split at h
    · next hk =>
      obtain rfl := Option.some.inj h
      have := Cursor.sizeBehind_of_nextSibling? hk
      simp only [remaining]
      omega
    · obtain ⟨k', hk, rfl⟩ := Option.map_eq_some_iff.1 h
      have := Cursor.sizeBehind_of_parent? hk
      simp only [remaining]
      omega

/-- Makes all moves. -/
def run (source : Source) (p : Progress) : Builder :=
  match _h : p.step? source with
  | none => p.builder
  | some p' => p'.run source
termination_by p.remaining
decreasing_by exact remaining_of_step? _h

end Progress

/-- The tree for rules of a concrete tree. -/
def build (source : Source) (c : Concrete) : Option Node := ((Progress.start c).run source).root

end PrototypeScan.JavaScript.Estree

namespace PrototypeScan.JavaScript

/-- The tree of a source; none if the source has a syntax error. -/
def program? (sourceType : SourceType) (source : String) : Option Node :=
  (parse? source).bind (Estree.build ⟨source.toList.toArray, sourceType⟩)

end PrototypeScan.JavaScript
