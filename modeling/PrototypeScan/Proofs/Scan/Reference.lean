import PrototypeScan.Proofs.Finding.Filtered
import PrototypeScan.Proofs.Tree.Preorder
import PrototypeScan.Scan.Tree

/-!
A scan in terms of recursion over the tree: the rules are tried at every node in preorder, and what they
find is collected.
-/
namespace PrototypeScan

namespace Rule

/-- The findings of the matching rules at one node, in the order of the rules. -/
def findingsAt (rules : List Rule) (n : Node) : List Finding :=
  (rules.filter (·.isMatch n)).map (·.extract n)

theorem findingsAt_cons (r : Rule) (rules : List Rule) (n : Node) :
    findingsAt (r :: rules) n =
      (if r.isMatch n then [r.extract n] else []) ++ findingsAt rules n := by
  by_cases h : r.isMatch n <;> simp [findingsAt, h]

end Rule

namespace Scan

/-- Everything that rules find in a tree, repeated findings included. -/
def offered (rules : List Rule) (root : Node) : List Finding :=
  root.preorder.flatMap (Rule.findingsAt rules)

theorem visit_eq_extend (rules : List Rule) (c : Collector) (n : Node) :
    visit rules c n = c.extend (Rule.findingsAt rules n) := by
  induction rules generalizing c with
  | nil => rfl
  | cons r rules ih =>
    rw [Rule.findingsAt_cons, Collector.extend, List.foldl_append, ← Collector.extend, ← ih]
    by_cases h : r.isMatch n <;> simp [visit, h]

theorem foldl_visit (rules : List Rule) (c : Collector) (ns : List Node) :
    ns.foldl (visit rules) c = c.extend (ns.flatMap (Rule.findingsAt rules)) := by
  induction ns generalizing c with
  | nil => rfl
  | cons n ns ih =>
    rw [List.foldl_cons, ih, visit_eq_extend, List.flatMap_cons]
    exact (List.foldl_append).symm

theorem tree_eq_collected (rules : List Rule) (root : Node) :
    tree rules root = Finding.collected (offered rules root) := by
  rw [tree, Walk.foldl_start, foldl_visit, Collector.finish_extend_empty, offered]

/-- Rules that find at each node a part of what other rules find, told by the keys, report that part of the
other rules' report. -/
theorem filter_tree_of_findingsAt (keep : Finding.Key → Bool) {part rules : List Rule} {root : Node}
    (h : ∀ n ∈ root.preorder,
      (Rule.findingsAt rules n).filter (fun f => keep f.key) = Rule.findingsAt part n) :
    (tree rules root).filter (fun f => keep f.key) = tree part root := by
  have hoffered : (offered rules root).filter (fun f => keep f.key) = offered part root := by
    rw [offered, List.filter_flatMap, offered]
    exact List.flatMap_congr h
  rw [tree_eq_collected, Finding.filter_collected, hoffered, tree_eq_collected]

/-- Scanning a node gives the findings of the recursive walk, of each key the first, inserted by line. -/
theorem value_node (rules : List Rule) (root : Node) :
    value rules (.node root) =
      .ok ((Finding.firstOfEach (root.preorder.flatMap (Rule.findingsAt rules))).insertionSort
        fun f g => f.line.rank ≤ g.line.rank) := by
  rw [value, tree_eq_collected]
  rfl

end Scan

end PrototypeScan
