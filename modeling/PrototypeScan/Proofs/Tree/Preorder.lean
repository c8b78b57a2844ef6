import PrototypeScan.Tree.Walk

/-!
A walk visits the nodes of a tree in preorder. The pending nodes of a walk stand for their whole trees, one
after the other, and a step takes the first node off these.
-/
namespace PrototypeScan

namespace Node

theorem listPreorder_eq_flatMap (ns : List Node) : listPreorder ns = ns.flatMap preorder := by
  induction ns with
  | nil => rfl
  | cons n ns ih => rw [listPreorder, ih, List.flatMap_cons]

theorem listPreorder_append (ns ms : List Node) :
    listPreorder (ns ++ ms) = listPreorder ns ++ listPreorder ms := by
  simp only [listPreorder_eq_flatMap, List.flatMap_append]

theorem mem_listPreorder {ns : List Node} {m : Node} :
    m ∈ listPreorder ns ↔ ∃ n ∈ ns, m ∈ n.preorder := by
  rw [listPreorder_eq_flatMap, List.mem_flatMap]

theorem valuePreorder_eq (v : Value Node) : valuePreorder v = listPreorder v.children := by
  cases v <;> simp [valuePreorder, Value.children, listPreorder]

theorem fieldsPreorder_eq (fs : List (String × Value Node)) :
    fieldsPreorder fs = listPreorder (fs.flatMap (·.2.children)) := by
  induction fs with
  | nil => simp [fieldsPreorder, listPreorder]
  | cons f fs ih =>
    obtain ⟨name, v⟩ := f
    rw [fieldsPreorder, ih, fieldPreorder, valuePreorder_eq, List.flatMap_cons, listPreorder_append]

theorem fieldsPreorder_append (fs gs : List (String × Value Node)) :
    fieldsPreorder (fs ++ gs) = fieldsPreorder fs ++ fieldsPreorder gs := by
  simp only [fieldsPreorder_eq, List.flatMap_append, listPreorder_append]

/-- A tree is its root, followed by the trees of the children. -/
theorem preorder_eq (n : Node) : n.preorder = n :: listPreorder n.children := by
  cases n with
  | mk k fs l => rw [preorder, fieldsPreorder_eq]; rfl

theorem mem_preorder_self (n : Node) : n ∈ n.preorder := by
  rw [preorder_eq]
  exact List.mem_cons_self

theorem length_preorder_le {ns : List Node} {n : Node} (h : n ∈ ns) :
    n.preorder.length ≤ (listPreorder ns).length := by
  induction ns with
  | nil => exact absurd h List.not_mem_nil
  | cons m ns ih =>
    rw [listPreorder, List.length_append]
    rcases List.mem_cons.1 h with rfl | h
    · exact Nat.le_add_right _ _
    · exact Nat.le_trans (ih h) (Nat.le_add_left _ _)

/-- The children of the nodes of a tree are nodes of it. -/
theorem mem_preorder_of_mem_children {root n m : Node} (hn : n ∈ root.preorder) (hm : m ∈ n.children) :
    m ∈ root.preorder := by
  induction hlength : root.preorder.length using Nat.strongRecOn generalizing root with
  | ind length ih =>
    rw [preorder_eq, List.mem_cons, mem_listPreorder] at hn
    rw [preorder_eq, List.mem_cons, mem_listPreorder]
    refine .inr ?_
    rcases hn with rfl | ⟨k, hk, hn⟩
    · exact ⟨m, hm, mem_preorder_self m⟩
    · have hle := length_preorder_le hk
      rw [preorder_eq, List.length_cons] at hlength
      exact ⟨k, hk, ih _ (by omega) hn rfl⟩

end Node

namespace Walk

/-- The nodes that are still to come. -/
def upcoming (w : Walk) : List Node := Node.listPreorder w.pending

theorem upcoming_start (root : Node) : (start root).upcoming = root.preorder := by
  simp [upcoming, start, Node.listPreorder]

theorem upcoming_of_next?_eq_none {w : Walk} (h : w.next? = none) : w.upcoming = [] := by
  obtain ⟨pending⟩ := w
  cases pending with
  | nil => rfl
  | cons n rest => simp [next?] at h

theorem upcoming_of_next? {w w' : Walk} {n : Node} (h : w.next? = some (n, w')) :
    w.upcoming = n :: w'.upcoming := by
  obtain ⟨rest, hw, hw'⟩ := next?_eq_some h
  rw [upcoming, upcoming, hw, hw', Node.listPreorder, Node.preorder_eq, Node.listPreorder_append]
  rfl

theorem foldl_eq_upcoming {β : Type} (f : β → Node → β) (init : β) (w : Walk) :
    w.foldl f init = w.upcoming.foldl f init := by
  fun_induction foldl f init w with
  | case1 init w h => rw [upcoming_of_next?_eq_none h, List.foldl_nil]
  | case2 init w n w' h ih => rw [ih, upcoming_of_next? h, List.foldl_cons]

theorem foldl_start {β : Type} (f : β → Node → β) (init : β) (root : Node) :
    (start root).foldl f init = root.preorder.foldl f init := by
  rw [foldl_eq_upcoming, upcoming_start]

/-- The nodes that a walk visits, in order. -/
def visited (w : Walk) : List Node := (w.foldl (fun latest n => n :: latest) []).reverse

theorem visited_start (root : Node) : (start root).visited = root.preorder := by
  rw [visited, foldl_start, List.foldl_flip_cons_eq_append, List.append_nil, List.map_id', List.reverse_reverse]

end Walk

end PrototypeScan
