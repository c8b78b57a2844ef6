import PrototypeScan.Proofs.Tree.Measured
import PrototypeScan.Scan.Tree

/-!
A scan within limits. The limits are held against the size and the height of the tree, the size first, and a tree
that keeps within both is scanned as if there were none.
-/
namespace PrototypeScan.Scan

namespace Limits

variable {limits looser : Limits} {root : Node}

/-- That a tree has no more nodes than it may have. -/
def AdmitSize (limits : Limits) (root : Node) : Prop := ∀ limit, limits.nodes = some limit → root.size ≤ limit

/-- That a tree goes no further down than it may. -/
def AdmitHeight (limits : Limits) (root : Node) : Prop := ∀ limit, limits.depth = some limit → root.height ≤ limit

/-- That each limit left is one that was set for the same figure, or a higher one. -/
structure LoosenedTo (limits looser : Limits) : Prop where
  nodes : ∀ limit, looser.nodes = some limit → ∃ stricter ≤ limit, limits.nodes = some stricter
  depth : ∀ limit, looser.depth = some limit → ∃ stricter ≤ limit, limits.depth = some stricter

theorem AdmitSize.loosened (h : limits.AdmitSize root) (hloose : limits.LoosenedTo looser) :
    looser.AdmitSize root := by
  intro limit hlimit
  obtain ⟨stricter, hle, hstricter⟩ := hloose.nodes limit hlimit
  exact Nat.le_trans (h stricter hstricter) hle

theorem AdmitHeight.loosened (h : limits.AdmitHeight root) (hloose : limits.LoosenedTo looser) :
    looser.AdmitHeight root := by
  intro limit hlimit
  obtain ⟨stricter, hle, hstricter⟩ := hloose.depth limit hlimit
  exact Nat.le_trans (h stricter hstricter) hle

/-- The limit on the number of nodes that a tree exceeds, and behind it the limit on its depth. -/
theorem exceeded?_eq (limits : Limits) (root : Node) :
    limits.exceeded? root =
      ((limits.nodes.filter (root.size > ·)).map (.tooLarge root.size)).or
        ((limits.depth.filter (root.height > ·)).map (.tooDeep root.height)) := by
  obtain ⟨nodes, depth⟩ := limits
  rw [exceeded?, Stats.measure_eq]
  dsimp only
  cases hnodes : nodes.filter (root.size > ·) with
  | some limit =>
    obtain ⟨rfl, -⟩ := Option.filter_eq_some_iff.1 hnodes
    rfl
  | none =>
    cases depth <;> cases nodes <;> rfl

theorem filter_eq_none_iff {bound : Option Nat} {n : Nat} :
    bound.filter (n > ·) = none ↔ ∀ limit, bound = some limit → n ≤ limit := by
  simp [Option.filter_eq_none_iff]

theorem exceeded?_eq_none_iff : limits.exceeded? root = none ↔ limits.AdmitSize root ∧ limits.AdmitHeight root := by
  rw [exceeded?_eq, Option.or_eq_none_iff, Option.map_eq_none_iff, Option.map_eq_none_iff, filter_eq_none_iff,
    filter_eq_none_iff]
  rfl

theorem exceeded?_eq_tooLarge_iff {nodes limit : Nat} :
    limits.exceeded? root = some (.tooLarge nodes limit) ↔
      limits.nodes = some limit ∧ limit < root.size ∧ root.size = nodes := by
  rw [exceeded?_eq, Option.or_eq_some_iff, Option.map_eq_some_iff, Option.map_eq_some_iff]
  constructor
  · rintro (⟨limit', hlimit, heq⟩ | ⟨-, limit', -, heq⟩)
    · cases heq
      obtain ⟨hnodes, hlt⟩ := Option.filter_eq_some_iff.1 hlimit
      exact ⟨hnodes, of_decide_eq_true hlt, rfl⟩
    · cases heq
  · rintro ⟨hnodes, hlt, rfl⟩
    exact .inl ⟨limit, Option.filter_eq_some_iff.2 ⟨hnodes, decide_eq_true hlt⟩, rfl⟩

theorem exceeded?_eq_tooDeep_iff {depth limit : Nat} :
    limits.exceeded? root = some (.tooDeep depth limit) ↔
      limits.AdmitSize root ∧ limits.depth = some limit ∧ limit < root.height ∧ root.height = depth := by
  rw [exceeded?_eq, Option.or_eq_some_iff, Option.map_eq_some_iff, Option.map_eq_some_iff, Option.map_eq_none_iff,
    filter_eq_none_iff]
  constructor
  · rintro (⟨limit', -, heq⟩ | ⟨hsize, limit', hlimit, heq⟩)
    · cases heq
    · cases heq
      obtain ⟨hdepth, hlt⟩ := Option.filter_eq_some_iff.1 hlimit
      exact ⟨hsize, hdepth, of_decide_eq_true hlt, rfl⟩
  · rintro ⟨hsize, hdepth, hlt, rfl⟩
    exact .inr ⟨hsize, limit, Option.filter_eq_some_iff.2 ⟨hdepth, decide_eq_true hlt⟩, rfl⟩

theorem exceeded?_ne_invalid (found : String) : limits.exceeded? root ≠ some (.invalid found) := by
  rw [exceeded?_eq, Ne, Option.or_eq_some_iff, Option.map_eq_some_iff, Option.map_eq_some_iff]
  rintro (⟨_, -, heq⟩ | ⟨-, _, -, heq⟩) <;> cases heq

end Limits

section Outcomes

variable {limits looser : Limits} {rules : List Rule} {root : Node} {v : Value Node} {findings : List Finding}

theorem limited_of_not_node (h : v.asNode? = none) : limited limits rules v = .error (.invalid v.typeName) := by
  cases v with
  | node root => cases h
  | _ => rfl

theorem limited_node_eq_error_iff {e : TreeError} :
    limited limits rules (.node root) = .error e ↔ limits.exceeded? root = some e := by
  rw [limited, Value.asNode?, Option.bind_some]
  cases limits.exceeded? root <;> simp [value]

theorem limited_node_eq_ok_iff :
    limited limits rules (.node root) = .ok findings ↔
      limits.AdmitSize root ∧ limits.AdmitHeight root ∧ value rules (.node root) = .ok findings := by
  rw [← and_assoc, ← Limits.exceeded?_eq_none_iff, limited, Value.asNode?, Option.bind_some]
  cases limits.exceeded? root <;> simp

theorem limited_eq_invalid_iff {found : String} :
    limited limits rules v = .error (.invalid found) ↔ v.asNode? = none ∧ v.typeName = found := by
  cases hnode : v.asNode? with
  | none =>
    rw [limited_of_not_node hnode]
    simp
  | some root =>
    obtain rfl : v = .node root := by
      cases v <;> cases hnode
      rfl
    rw [limited_node_eq_error_iff]
    simp [Limits.exceeded?_ne_invalid]

theorem limited_loosened (hloose : limits.LoosenedTo looser) (h : limited limits rules v = .ok findings) :
    limited looser rules v = .ok findings := by
  cases v with
  | node root =>
    rw [limited_node_eq_ok_iff] at h ⊢
    exact ⟨h.1.loosened hloose, h.2.1.loosened hloose, h.2.2⟩
  | _ => cases h

/-- What a scan within limits comes to. A value that is no node is refused as that. A tree is refused with its size
if that is above a limit, else with its height if that is above a limit, else it is scanned. So a limit that is raised
or taken back changes nothing for what was scanned before. The walk that measures a tree finds these figures. -/
theorem limited_exact (limits : Limits) (rules : List Rule) :
    (∀ v found, limited limits rules v = .error (.invalid found) ↔ v.asNode? = none ∧ v.typeName = found) ∧
      (∀ root,
        (∀ nodes limit, limited limits rules (.node root) = .error (.tooLarge nodes limit) ↔
          limits.nodes = some limit ∧ limit < root.size ∧ root.size = nodes) ∧
        (∀ depth limit, limited limits rules (.node root) = .error (.tooDeep depth limit) ↔
          limits.AdmitSize root ∧ limits.depth = some limit ∧ limit < root.height ∧ root.height = depth) ∧
        (limited limits rules (.node root) = value rules (.node root) ↔
          limits.AdmitSize root ∧ limits.AdmitHeight root) ∧
        Stats.measure root = ⟨root.size, root.height⟩) ∧
      ∀ looser, limits.LoosenedTo looser → ∀ v findings,
        limited limits rules v = .ok findings → limited looser rules v = .ok findings := by
  refine ⟨fun v found => limited_eq_invalid_iff, fun root => ⟨?_, ?_, ?_, Stats.measure_eq root⟩, ?_⟩
  · intro nodes limit
    rw [limited_node_eq_error_iff, Limits.exceeded?_eq_tooLarge_iff]
  · intro depth limit
    rw [limited_node_eq_error_iff, Limits.exceeded?_eq_tooDeep_iff]
  · rw [value, limited_node_eq_ok_iff, ← and_assoc]
    exact and_iff_left rfl
  · exact fun looser hloose v findings => limited_loosened hloose

end Outcomes

end PrototypeScan.Scan
