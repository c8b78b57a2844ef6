import PrototypeScan.Proofs.Rule.Pollution
import PrototypeScan.Rule.Basic

/-!
Rules do not disturb each other. Some of the rules of a scan find the same with the others as without them,
if no other rule reports under a name of theirs.
-/
namespace PrototypeScan

/-- What a test holds for among part of a list is what it holds for among all of it, if it holds for nothing
in the rest. -/
theorem filter_eq_of_sublist {α : Type} {part rest all : List α} (p : α → Bool)
    (hpart : part.Sublist all) (hall : all.Perm (part ++ rest)) (hrest : ∀ a ∈ rest, ¬ p a) :
    all.filter p = part.filter p := by
  have hperm : (all.filter p).Perm (part.filter p) := by
    have h := hall.filter p
    rwa [List.filter_append, List.filter_eq_nil_iff.2 hrest, List.append_nil] at h
  exact ((hpart.filter p).eq_of_length_le hperm.length_eq.le).symm

theorem Rule.mem_findingsAt {rules : List Rule} {n : Node} {f : Finding} :
    f ∈ findingsAt rules n ↔ ∃ r ∈ rules, r.isMatch n = true ∧ r.extract n = f := by
  rw [findingsAt, List.mem_map]
  constructor
  · rintro ⟨r, hr, hf⟩
    obtain ⟨hmem, hmatch⟩ := List.mem_filter.1 hr
    exact ⟨r, hmem, hmatch, hf⟩
  · rintro ⟨r, hmem, hmatch, hf⟩
    exact ⟨r, List.mem_filter.2 ⟨hmem, hmatch⟩, hf⟩

namespace Scan

/-- The names under which rules report something in a tree. -/
def reportedNames (rules : List Rule) (root : Node) : List String :=
  (offered rules root).map (·.ruleName)

variable {kept others rules : List Rule}

theorem filter_findingsAt (hkept : kept.Sublist rules) (hrules : rules.Perm (kept ++ others))
    (keep : Finding → Bool) {n : Node} (hin : ∀ f ∈ Rule.findingsAt kept n, keep f)
    (hout : ∀ f ∈ Rule.findingsAt others n, ¬ keep f) :
    (Rule.findingsAt rules n).filter keep = Rule.findingsAt kept n := by
  have hothers : ∀ r ∈ others, ¬ (keep (r.extract n) && r.isMatch n) := by
    intro r hr h
    obtain ⟨hkeep, hmatch⟩ := Bool.and_eq_true_iff.1 h
    exact hout _ (Rule.mem_findingsAt.2 ⟨r, hr, hmatch, rfl⟩) hkeep
  have hmatches : kept.filter (fun r => keep (r.extract n) && r.isMatch n) =
      kept.filter (·.isMatch n) := by
    refine List.filter_congr fun r hr => ?_
    cases hmatch : r.isMatch n with
    | false => exact Bool.and_false _
    | true =>
      rw [Bool.and_true]
      exact hin _ (Rule.mem_findingsAt.2 ⟨r, hr, hmatch, rfl⟩)
  calc (Rule.findingsAt rules n).filter keep
    _ = (rules.filter fun r => keep (r.extract n) && r.isMatch n).map (·.extract n) := by
      rw [Rule.findingsAt, List.filter_map, List.filter_filter]
      rfl
    _ = (kept.filter fun r => keep (r.extract n) && r.isMatch n).map (·.extract n) := by
      rw [filter_eq_of_sublist _ hkept hrules hothers]
    _ = Rule.findingsAt kept n := by
      rw [hmatches]
      rfl

theorem filter_tree (hkept : kept.Sublist rules) (hrules : rules.Perm (kept ++ others)) {root : Node}
    (names : List String) (hin : ∀ f ∈ offered kept root, f.ruleName ∈ names)
    (hout : ∀ f ∈ offered others root, f.ruleName ∉ names) :
    (tree rules root).filter (fun f => f.ruleName ∈ names) = tree kept root := by
  apply filter_tree_of_findingsAt fun k => k.ruleName ∈ names
  intro n hn
  apply filter_findingsAt hkept hrules
  · intro f hf
    have hname := hin f (List.mem_flatMap.2 ⟨n, hn, hf⟩)
    exact decide_eq_true hname
  · intro f hf hkeep
    have hname := hout f (List.mem_flatMap.2 ⟨n, hn, hf⟩)
    exact hname (of_decide_eq_true hkeep)

/-- Of a scan with all rules, the findings under the names of some rules are those of a scan with these
rules alone: the same ones, with the same contents and in the same order. -/
theorem value_sublist (hkept : kept.Sublist rules) (hrules : rules.Perm (kept ++ others)) {root : Node}
    (hapart : ∀ name ∈ reportedNames kept root, name ∉ reportedNames others root) :
    ∃ findings, value rules (.node root) = .ok findings ∧
      value kept (.node root) =
        .ok (findings.filter fun f => f.ruleName ∈ reportedNames kept root) := by
  refine ⟨tree rules root, rfl, ?_⟩
  have hin : ∀ f ∈ offered kept root, f.ruleName ∈ reportedNames kept root :=
    fun f hf => List.mem_map.2 ⟨f, hf, rfl⟩
  have hout : ∀ f ∈ offered others root, f.ruleName ∉ reportedNames kept root :=
    fun f hf hname => hapart f.ruleName hname (List.mem_map.2 ⟨f, hf, rfl⟩)
  rw [filter_tree hkept hrules _ hin hout]
  rfl

/-- Between two pollution rules, one that reports every assignment. -/
theorem value_sublist_assignments :
    let first := Pollution.rule ["prototype"]
    let second := Pollution.rule ["constructor"]
    let between := Rule.ofKind "assignment" "AssignmentExpression" .info
    let root := Pollution.assignments
    [first, second].Sublist [first, between, second] ∧
    [first, between, second].Perm ([first, second] ++ [between]) ∧
    (∀ name ∈ reportedNames [first, second] root, name ∉ reportedNames [between] root) ∧
    ∃ findings, value [first, between, second] (.node root) = .ok findings ∧
      value [first, second] (.node root) =
        .ok (findings.filter fun f => f.ruleName ∈ reportedNames [first, second] root) := by
  intro first second between root
  have hkept : [first, second].Sublist [first, between, second] :=
    (List.Sublist.cons between (List.Sublist.refl [second])).cons_cons first
  have hrules : [first, between, second].Perm ([first, second] ++ [between]) :=
    .cons first (.swap second between [])
  have hapart : ∀ name ∈ reportedNames [first, second] root,
      name ∉ reportedNames [between] root := by decide
  exact ⟨hkept, hrules, hapart, value_sublist hkept hrules hapart⟩

end Scan

end PrototypeScan
