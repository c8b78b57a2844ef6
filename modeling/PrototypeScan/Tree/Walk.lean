import PrototypeScan.Tree.Basic

/-!
Walks over trees. `Node.preorder`, `Node.size` and `Node.height` say by recursion what a walk visits and
how large a tree is; `Walk` and `Stats.measure` find the same with a list of pending nodes, so that the
depth of a tree costs no stack.
-/
namespace PrototypeScan

namespace Node

mutual

/-- A node and all its descendants: parents first, children in order. -/
def preorder : Node → List Node
  | mk k fs l => mk k fs l :: fieldsPreorder fs

def fieldsPreorder : List (String × Value Node) → List Node
  | [] => []
  | f :: fs => fieldPreorder f ++ fieldsPreorder fs

def fieldPreorder : String × Value Node → List Node
  | (_, v) => valuePreorder v

def valuePreorder : Value Node → List Node
  | .node n => n.preorder
  | .nodes ns => listPreorder ns
  | .string _ => []
  | .number _ => []
  | .bool _ => []
  | .null => []
  | .absent => []

def listPreorder : List Node → List Node
  | [] => []
  | n :: ns => n.preorder ++ listPreorder ns

end

mutual

/-- The number of nodes in a tree. -/
def size : Node → Nat
  | mk _ fs _ => 1 + fieldsSize fs

def fieldsSize : List (String × Value Node) → Nat
  | [] => 0
  | f :: fs => fieldSize f + fieldsSize fs

def fieldSize : String × Value Node → Nat
  | (_, v) => valueSize v

def valueSize : Value Node → Nat
  | .node n => n.size
  | .nodes ns => listSize ns
  | .string _ => 0
  | .number _ => 0
  | .bool _ => 0
  | .null => 0
  | .absent => 0

def listSize : List Node → Nat
  | [] => 0
  | n :: ns => n.size + listSize ns

end

mutual

/-- The number of nodes on the longest way down; one for a node without children. -/
def height : Node → Nat
  | mk _ fs _ => 1 + fieldsHeight fs

def fieldsHeight : List (String × Value Node) → Nat
  | [] => 0
  | f :: fs => max (fieldHeight f) (fieldsHeight fs)

def fieldHeight : String × Value Node → Nat
  | (_, v) => valueHeight v

def valueHeight : Value Node → Nat
  | .node n => n.height
  | .nodes ns => listHeight ns
  | .string _ => 0
  | .number _ => 0
  | .bool _ => 0
  | .null => 0
  | .absent => 0

def listHeight : List Node → Nat
  | [] => 0
  | n :: ns => max n.height (listHeight ns)

end

theorem listSize_append (ns ms : List Node) : listSize (ns ++ ms) = listSize ns + listSize ms := by
  induction ns with
  | nil => simp [listSize]
  | cons n ns ih => simp [listSize, ih, Nat.add_assoc]

theorem valueSize_eq (v : Value Node) : valueSize v = listSize v.children := by
  cases v <;> simp [valueSize, Value.children, listSize]

theorem fieldSize_eq (f : String × Value Node) : fieldSize f = listSize f.2.children := by
  cases f with
  | mk name v => simp [fieldSize, valueSize_eq]

theorem listSize_reverse (ns : List Node) : listSize ns.reverse = listSize ns := by
  induction ns with
  | nil => rfl
  | cons n ns ih => simp [listSize_append, listSize, ih, Nat.add_comm]

theorem fieldsSize_eq (fs : List (String × Value Node)) :
    fieldsSize fs = listSize (fs.flatMap (·.2.children)) := by
  induction fs with
  | nil => simp [fieldsSize, listSize]
  | cons f fs ih => simp [fieldsSize, listSize_append, fieldSize_eq, ih]

/-- A tree has one node more than its children have together. -/
theorem size_eq (n : Node) : n.size = 1 + listSize n.children := by
  cases n with
  | mk k fs l => simp [size, children, fields, fieldsSize_eq]

end Node

/-- The nodes still to be visited, the next one first; each stands for its whole tree. -/
structure Walk where
  pending : List Node

namespace Walk

def start (root : Node) : Walk := ⟨[root]⟩

/-- Puts a node in front of what is pending. -/
def push (w : Walk) (n : Node) : Walk := ⟨n :: w.pending⟩

/-- The next node, and the walk behind it: its children are put in front of what was pending, the last
one first. -/
def next? (w : Walk) : Option (Node × Walk) :=
  match w.pending with
  | [] => none
  | n :: rest => some (n, n.children.reverse.foldl push ⟨rest⟩)

@[simp] theorem pending_push (w : Walk) (n : Node) : (w.push n).pending = n :: w.pending := rfl

theorem pending_foldl_push (w : Walk) (ns : List Node) :
    (ns.foldl push w).pending = ns.reverse ++ w.pending := by
  induction ns generalizing w with
  | nil => rfl
  | cons n ns ih => simp [ih]

theorem next?_eq_some {w w' : Walk} {n : Node} (h : w.next? = some (n, w')) :
    ∃ rest, w.pending = n :: rest ∧ w'.pending = n.children ++ rest := by
  obtain ⟨pending⟩ := w
  cases pending with
  | nil => simp [next?] at h
  | cons m rest =>
    simp only [next?, Option.some.injEq, Prod.mk.injEq] at h
    obtain ⟨rfl, rfl⟩ := h
    exact ⟨rest, rfl, by rw [pending_foldl_push, List.reverse_reverse]⟩

/-- How many nodes are still to come. -/
def remaining (w : Walk) : Nat := Node.listSize w.pending

theorem remaining_of_next? {w w' : Walk} {n : Node} (h : w.next? = some (n, w')) :
    w'.remaining < w.remaining := by
  obtain ⟨rest, hw, hw'⟩ := next?_eq_some h
  simp only [remaining, hw, hw', Node.listSize_append, Node.listSize, Node.size_eq n]
  omega

/-- Visits all nodes in order. -/
def foldl {β : Type} (f : β → Node → β) (init : β) (w : Walk) : β :=
  match _h : w.next? with
  | none => init
  | some (n, w') => w'.foldl f (f init n)
termination_by w.remaining
decreasing_by exact remaining_of_next? _h

end Walk

/-- The size figures of a tree. -/
structure Stats where
  nodes : Nat
  maxDepth : Nat
  deriving DecidableEq, Repr

namespace Stats

/-- Counts pending nodes, each given with its depth, into the figures so far. The children of a node are
counted in whatever order puts them in front. -/
def count (stats : Stats) (pending : List (Node × Nat)) : Stats :=
  match pending with
  | [] => stats
  | (n, depth) :: rest =>
    count ⟨stats.nodes + 1, max stats.maxDepth depth⟩
      (n.children.reverse.map (·, depth + 1) ++ rest)
termination_by Node.listSize (pending.map (·.1))
decreasing_by
  simp only [List.map_append, List.map_map, List.map_cons, Node.listSize_append, Node.listSize,
    Node.size_eq n]
  have : (n.children.reverse.map ((·.1) ∘ (·, depth + 1))) = n.children.reverse := by
    simp [Function.comp_def]
  rw [this, Node.listSize_reverse]
  omega

/-- The figures of a tree; the root is at depth one. -/
def measure (root : Node) : Stats := count ⟨0, 0⟩ [(root, 1)]

end Stats

end PrototypeScan
