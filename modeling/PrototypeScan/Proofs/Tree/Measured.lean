import PrototypeScan.Tree.Walk

/-!
The figures of a tree are its size and its height. They are found with a list of pending nodes, each with its
depth, and the order of that list does not matter: what counts is how many nodes stand in it and how far down
their trees go.
-/
namespace PrototypeScan

namespace Node

theorem listHeight_append (ns ms : List Node) :
    listHeight (ns ++ ms) = max (listHeight ns) (listHeight ms) := by
  induction ns with
  | nil => simp [listHeight]
  | cons n ns ih => rw [List.cons_append, listHeight, listHeight, ih, Nat.max_assoc]

theorem listHeight_reverse (ns : List Node) : listHeight ns.reverse = listHeight ns := by
  induction ns with
  | nil => rfl
  | cons n ns ih =>
    rw [List.reverse_cons, listHeight_append, ih, listHeight, listHeight, listHeight, Nat.max_zero, Nat.max_comm]

theorem fieldHeight_eq (f : String × Value Node) : fieldHeight f = listHeight f.2.children := by
  obtain ⟨name, v⟩ := f
  rw [fieldHeight]
  cases v <;> simp [valueHeight, Value.children, listHeight]

theorem fieldsHeight_eq (fs : List (String × Value Node)) :
    fieldsHeight fs = listHeight (fs.flatMap (·.2.children)) := by
  induction fs with
  | nil => rfl
  | cons f fs ih => rw [fieldsHeight, ih, fieldHeight_eq, List.flatMap_cons, listHeight_append]

/-- A tree goes one level further down than the highest of its children's trees. -/
theorem height_eq (n : Node) : n.height = 1 + listHeight n.children := by
  cases n with
  | mk k fs l => rw [height, fieldsHeight_eq]; rfl

end Node

namespace Stats
open Node

/-- The depth of the deepest node in the trees of pending nodes that stand at the given depths. -/
def deepest : List (Node × Nat) → Nat
  | [] => 0
  | (n, depth) :: pending => max (depth + listHeight n.children) (deepest pending)

theorem deepest_append (pending rest : List (Node × Nat)) :
    deepest (pending ++ rest) = max (deepest pending) (deepest rest) := by
  induction pending with
  | nil => simp [deepest]
  | cons p pending ih => rw [List.cons_append, deepest, deepest, ih, Nat.max_assoc]

/-- A node and its children go down as far as the node's tree does. -/
theorem deepest_below (depth : Nat) (ns : List Node) :
    max depth (deepest (ns.map (·, depth + 1))) = depth + listHeight ns := by
  induction ns with
  | nil => simp [deepest, listHeight]
  | cons n ns ih =>
    have hn := height_eq n
    rw [List.map_cons, deepest, listHeight]
    omega

theorem map_fst_below (depth : Nat) (ns : List Node) : (ns.map (·, depth)).map Prod.fst = ns := by
  rw [List.map_map]
  exact List.map_id ns

/-- Counting adds the nodes of all pending trees to the figures so far, and the depth of the deepest of them. -/
theorem count_eq (stats : Stats) (pending : List (Node × Nat)) :
    stats.count pending =
      ⟨stats.nodes + listSize (pending.map Prod.fst), max stats.maxDepth (deepest pending)⟩ := by
  fun_induction count stats pending with
  | case1 stats => simp [listSize, deepest]
  | case2 stats n depth rest ih =>
    have hsize := size_eq n
    have hbelow := deepest_below depth n.children.reverse
    rw [listHeight_reverse] at hbelow
    rw [ih, List.map_append, map_fst_below, listSize_append, listSize_reverse, deepest_append, List.map_cons,
      listSize, deepest, ← hbelow]
    simp only [Stats.mk.injEq]
    omega

theorem measure_eq (root : Node) : measure root = ⟨root.size, root.height⟩ := by
  rw [measure, count_eq, height_eq]
  simp [listSize, deepest]

end Stats

end PrototypeScan
