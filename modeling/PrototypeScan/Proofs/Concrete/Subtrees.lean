import PrototypeScan.Concrete.Basic

/-!
The nodes of a concrete tree, and induction over it by way of the children.
-/
namespace PrototypeScan.Concrete

/-- What a node has whenever its children have it, all concrete trees have. -/
@[elab_as_elim]
theorem induction {motive : Concrete → Prop}
    (node : ∀ l cs, (∀ c ∈ cs, motive c) → motive (.node l cs)) (c : Concrete) : motive c :=
  match c with
  | .node l cs => node l cs fun c _ => induction node c

mutual

/-- A concrete tree and everything below it. -/
def subtrees : Concrete → List Concrete
  | .node l cs => .node l cs :: listSubtrees cs

def listSubtrees : List Concrete → List Concrete
  | [] => []
  | c :: cs => subtrees c ++ listSubtrees cs

end

theorem listSubtrees_eq (cs : List Concrete) : listSubtrees cs = cs.flatMap subtrees := by
  induction cs with
  | nil => rfl
  | cons c cs ih => rw [listSubtrees, ih, List.flatMap_cons]

theorem mem_subtrees_self (c : Concrete) : c ∈ c.subtrees := by
  cases c with
  | node l cs => exact List.mem_cons_self

theorem mem_subtrees_of_child {l : Label} {cs : List Concrete} {c d : Concrete} (hc : c ∈ cs)
    (hd : d ∈ c.subtrees) : d ∈ (Concrete.node l cs).subtrees := by
  rw [subtrees, listSubtrees_eq]
  exact List.mem_cons_of_mem _ (List.mem_flatMap.2 ⟨c, hc, hd⟩)

end PrototypeScan.Concrete
