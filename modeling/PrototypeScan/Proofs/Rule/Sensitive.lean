import PrototypeScan.Proofs.Rule.Pollution

/-!
How a scan with the pollution rule depends on the sensitive names: more names add findings and change none,
and neither the order of the names nor a repetition counts.
-/
namespace PrototypeScan.Pollution

variable {narrow wide : List String}

theorem rule_congr (h : ∀ name, name ∈ narrow ↔ name ∈ wide) : rule narrow = rule wide := by
  have hcontains : narrow.contains = wide.contains := by
    funext name
    rw [Bool.eq_iff_iff, List.contains_iff_mem, List.contains_iff_mem]
    exact h name
  have hsensitive (n : Node) : sensitive? narrow n = sensitive? wide n := by
    have haccessed : accessed? narrow = accessed? wide := by
      funext member
      rw [accessed?, accessed?, hcontains]
    rw [sensitive?, sensitive?, haccessed]
  simp only [rule, Rule.mk.injEq, true_and]
  refine ⟨funext fun n => ?_, funext fun n => ?_⟩
  · rw [hsensitive]
  · simp only [extract, hsensitive]

theorem filter_findingsAt_rule (h : ∀ name ∈ narrow, name ∈ wide) (n : Node) :
    (Rule.findingsAt [rule wide] n).filter (fun f => f.propertyName ∈ narrow) =
      Rule.findingsAt [rule narrow] n := by
  rw [findingsAt_rule, findingsAt_rule]
  cases assignedMember? n with
  | none => rfl
  | some member =>
    rw [Option.bind_some, Option.bind_some]
    cases member.child? "property" with
    | none => rfl
    | some property =>
      rw [Option.bind_some, Option.bind_some]
      cases propertyName? member with
      | none => rfl
      | some name =>
        by_cases hnarrow : name ∈ narrow
        · have hwide : name ∈ wide := h name hnarrow
          simp [Option.filter_some, hnarrow, hwide, report]
        · by_cases hwide : name ∈ wide
          · simp [Option.filter_some, hnarrow, hwide, report]
          · simp [Option.filter_some, hnarrow, hwide]

theorem filter_tree_rule (h : ∀ name ∈ narrow, name ∈ wide) (root : Node) :
    (Scan.tree [rule wide] root).filter (fun f => f.propertyName ∈ narrow) =
      Scan.tree [rule narrow] root := by
  apply Scan.filter_tree_of_findingsAt fun k => k.propertyName ∈ narrow
  intro n _
  exact filter_findingsAt_rule h n

/-- The findings for some of the sensitive names are those of a scan for these names alone. If they are all
of the names, in whatever order and number, the two scans are the same. -/
theorem value_subset (h : ∀ name ∈ narrow, name ∈ wide) (root : Node) :
    (∃ findings, Scan.value [rule wide] (.node root) = .ok findings ∧
      Scan.value [rule narrow] (.node root) =
        .ok (findings.filter fun f => f.propertyName ∈ narrow)) ∧
    ((∀ name ∈ wide, name ∈ narrow) →
      Scan.value [rule narrow] (.node root) = Scan.value [rule wide] (.node root)) := by
  constructor
  · refine ⟨Scan.tree [rule wide] root, rfl, ?_⟩
    rw [filter_tree_rule h]
    rfl
  · intro hback
    rw [rule_congr fun name => ⟨h name, hback name⟩]

theorem value_subset_constructor :
    (∀ name ∈ ["constructor", "constructor"], name ∈ Pollution.defaultProperties) ∧
    (∃ findings, Scan.value [rule Pollution.defaultProperties] (.node assignments) = .ok findings ∧
      Scan.value [rule ["constructor", "constructor"]] (.node assignments) =
        .ok (findings.filter fun f => f.propertyName ∈ ["constructor", "constructor"])) ∧
    ((∀ name ∈ Pollution.defaultProperties, name ∈ ["constructor", "constructor"]) →
      Scan.value [rule ["constructor", "constructor"]] (.node assignments) =
        Scan.value [rule Pollution.defaultProperties] (.node assignments)) := by
  have hnames : ∀ name ∈ ["constructor", "constructor"], name ∈ Pollution.defaultProperties := by
    decide
  exact ⟨hnames, value_subset hnames assignments⟩

end PrototypeScan.Pollution
