import PrototypeScan.Concrete.Basic

/-!
Cursors: a place in a concrete tree, from which one moves to the first child, to the next sibling or to the
parent. A cursor never leaves the tree it was started on, and the root has no siblings for it.
-/
namespace PrototypeScan.Concrete

mutual

/-- The number of nodes in a concrete tree. -/
def size : Concrete → Nat
  | .node _ cs => 1 + listSize cs

def listSize : List Concrete → Nat
  | [] => 0
  | c :: cs => size c + listSize cs

end

theorem listSize_append (cs ds : List Concrete) : listSize (cs ++ ds) = listSize cs + listSize ds := by
  induction cs with
  | nil => simp [listSize]
  | cons c cs ih => simp [listSize, ih, Nat.add_assoc]

theorem size_eq (c : Concrete) : c.size = 1 + listSize c.children := by
  cases c with
  | node l cs => simp [size, children]

/-- A node, the siblings behind it, and its ancestors, the parent first, each with the siblings behind
it. -/
structure Cursor where
  node : Concrete
  later : List Concrete
  above : List (Concrete × List Concrete)

namespace Cursor

def start (root : Concrete) : Cursor := ⟨root, [], []⟩

def firstChild? (k : Cursor) : Option Cursor :=
  match k.node.children with
  | [] => none
  | c :: cs => some ⟨c, cs, (k.node, k.later) :: k.above⟩

def nextSibling? (k : Cursor) : Option Cursor :=
  match k.later with
  | [] => none
  | c :: cs => some { k with node := c, later := cs }

def parent? (k : Cursor) : Option Cursor :=
  match k.above with
  | [] => none
  | (c, cs) :: rest => some ⟨c, cs, rest⟩

/-- How many ancestors a cursor has. -/
def depth (k : Cursor) : Nat := k.above.length

/-- The nodes behind the subtree a cursor is at. -/
def sizeBehind (k : Cursor) : Nat := listSize (k.later ++ k.above.flatMap (·.2))

theorem sizeBehind_of_firstChild? {k k' : Cursor} (h : k.firstChild? = some k') :
    k'.node.size + k'.sizeBehind + 1 = k.node.size + k.sizeBehind ∧ k'.depth = k.depth + 1 := by
  unfold firstChild? at h
  split at h
  · cases h
  · next c cs hc =>
    obtain rfl := Option.some.inj h
    have hs := size_eq k.node
    simp only [hc, listSize] at hs
    simp only [sizeBehind, depth, List.flatMap_cons, listSize_append, List.length_cons, and_true]
    omega

theorem sizeBehind_of_nextSibling? {k k' : Cursor} (h : k.nextSibling? = some k') :
    k'.node.size + k'.sizeBehind = k.sizeBehind ∧ k'.depth = k.depth := by
  unfold nextSibling? at h
  split at h
  · cases h
  · next c cs hc =>
    obtain rfl := Option.some.inj h
    simp only [sizeBehind, depth, hc, listSize_append, listSize, and_true]
    omega

theorem sizeBehind_of_parent? {k k' : Cursor} (h : k.parent? = some k') :
    k'.sizeBehind ≤ k.sizeBehind ∧ k'.depth + 1 = k.depth := by
  unfold parent? at h
  split at h
  · cases h
  · next c cs rest hc =>
    obtain rfl := Option.some.inj h
    simp only [sizeBehind, depth, hc, List.flatMap_cons, listSize_append, List.length_cons, and_true]
    omega

end Cursor

end PrototypeScan.Concrete
