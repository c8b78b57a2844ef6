import PrototypeScan.Proofs.Estree.Rendered
import PrototypeScan.Proofs.Json.TooDeep
import PrototypeScan.Proofs.Tree.Measured

/-!
Chains of nodes, each the value of a field of the one around it. A chain is read back from its document exactly if it
has fewer nodes than the bound on the depth of a text, whatever bound is set on the depth of trees.
-/
namespace PrototypeScan

namespace Estree

/-- A chain of nodes. A level is the kind of a node and the name of the field that holds the next one; the last
node has a kind alone. -/
def nested (levels : List (String × String)) (last : String) : Node :=
  match levels with
  | [] => .mk last [] none
  | (kind, name) :: levels => .mk kind [(name, .node (nested levels last))] none

/-- The text of the document of a chain. -/
def nestedText (levels : List (String × String)) (last : String) : String := (written (nested levels last)).compact

theorem written_nested_nil (last : String) : written (nested [] last) = .object [("type", .string last)] := rfl

theorem written_nested_cons (kind name : String) (levels : List (String × String)) (last : String) :
    written (nested ((kind, name) :: levels) last) =
      .object [("type", .string kind), (name, written (nested levels last))] := rfl

/-- A chain has as many nodes as it is deep. -/
theorem measure_nested (levels : List (String × String)) (last : String) :
    Stats.measure (nested levels last) = ⟨levels.length + 1, levels.length + 1⟩ := by
  rw [Stats.measure_eq]
  induction levels with
  | nil => rfl
  | cons level levels ih =>
    have hchildren : (nested (level :: levels) last).children = [nested levels last] := rfl
    rw [Stats.mk.injEq] at ih ⊢
    rw [Node.size_eq, Node.height_eq, hchildren]
    simp only [Node.listSize, Node.listHeight, ih, List.length_cons]
    omega

/-! The chains that are read. -/

section Names

variable {levels : List (String × String)} (h : ∀ level ∈ levels, isReserved level.2 = false)
include h

theorem isWritable_nested (last : String) : isWritable (nested levels last) = true := by
  induction levels with
  | nil => rfl
  | cons level levels ih =>
    rw [List.forall_mem_cons] at h
    simp [nested, isWritable, fieldsWritable, fieldWritable, valueWritable, h.1, ih h.2]

theorem merged_nested (last : String) :
    (written (nested levels last)).merged = written (nested levels last) := by
  induction levels with
  | nil => rfl
  | cons level levels ih =>
    obtain ⟨kind, name⟩ := level
    rw [List.forall_mem_cons] at h
    have htype : isReserved "type" = true := rfl
    have hname : "type" ≠ name := by
      rintro rfl
      exact absurd (htype.symm.trans h.1) (by decide)
    simp [written_nested_cons, Json.merged, Json.mergedEntries, Json.mergedEntry, Json.setEntry, hname, ih h.2]

end Names

theorem writable_nested {levels : List (String × String)} {depth : Nat} (h : levels.length < depth)
    (last : String) : Json.Writable Json.everyKey (depth + 1) (written (nested levels last)) := by
  induction levels generalizing depth with
  | nil =>
    rw [written_nested_nil]
    refine Json.writable_object h fun e he => ?_
    rw [List.mem_singleton] at he
    exact ⟨rfl, he ▸ .string last⟩
  | cons level levels ih =>
    rw [List.length_cons] at h
    obtain ⟨depth, rfl⟩ := Nat.exists_eq_add_one_of_ne_zero (Nat.ne_zero_of_lt h)
    obtain ⟨kind, name⟩ := level
    rw [written_nested_cons]
    refine Json.writable_object (Nat.succ_pos depth) fun e he => ?_
    rw [List.mem_cons, List.mem_singleton] at he
    rcases he with rfl | rfl
    · exact ⟨rfl, .string kind⟩
    · exact ⟨rfl, ih (by omega)⟩

theorem read_nestedText {levels : List (String × String)} (hnames : ∀ level ∈ levels, isReserved level.2 = false)
    (h : levels.length + 1 < Json.depthBound) (last : String) :
    read (nestedText levels last) = .ok (.node (nested levels last)) := by
  have hread : Json.readWritten (nestedText levels last) = .ok (written (nested levels last)) :=
    Json.readPieces_written (writable_nested (Nat.lt_pred_of_succ_lt h) last) List.mem_cons_self
  have hvalue := (renders_written _ (isWritable_nested hnames last)).value_eq
  rw [read, Json.read, hread, Except.map, Except.map, merged_nested hnames, hvalue]

/-! The chains that are refused. -/

section Refused
open Json

theorem stops_nested {levels : List (String × String)} {depth : Nat} (h : depth ≤ levels.length + 1)
    (last : String) :
    Stops everyKey depth .value (writeCompact (written (nested levels last))) .tooDeep := by
  induction levels generalizing depth with
  | nil => exact stops_brace h _
  | cons level levels ih =>
    rw [List.length_cons] at h
    by_cases hdepth : depth ≤ 1
    · exact stops_brace hdepth _
    obtain ⟨depth, rfl⟩ := Nat.exists_eq_add_one_of_ne_zero (Nat.ne_zero_of_lt (Nat.lt_of_not_le hdepth))
    obtain ⟨kind, name⟩ := level
    have hkind : ReadsEntry everyKey depth ("type", .string kind) (quote "type" ++ ':' :: ([] ++ quote kind)) :=
      ⟨rfl, [], quote kind, isBlank_nil, reads_string kind, rfl⟩
    have hnext : LeadsToEntry [("type", .string kind)] [','] := leadsToEntry_next isBlank_nil (List.cons_ne_nil _ _)
    have hinner : Stops everyKey depth .value (writeCompact (written (nested levels last))) .tooDeep :=
      ih (by omega)
    have hfield : Stops everyKey depth (.entries [("type", .string kind)])
        ([','] ++ (quote name ++ ':' :: (writeCompact (written (nested levels last)) ++ ['}']))) .tooDeep :=
      stops_in_entry hnext rfl hinner
    have hentries := stops_behind_entry (leadsToEntry_first isBlank_nil) hkind (closes_cons List.mem_cons_self _) hfield
    have hobject := stops_object (by omega) hentries
    simpa [written_nested_cons, writeCompact, writeEntries, writeEntry, commaSeparated] using hobject

end Refused

theorem error_of_nestedText {levels : List (String × String)} (h : Json.depthBound ≤ levels.length + 1)
    (last : String) : ∃ e, read (nestedText levels last) = .error e ∧ e.cause = .tooDeep := by
  obtain ⟨e, herror, hcause⟩ := Json.readPieces_eq_error (stops_nested h last)
  refine ⟨e, ?_, hcause⟩
  rw [read, Json.read, Json.readWritten, nestedText, Json.compact, herror]
  rfl

/-- The document of a chain is read as the chain exactly if that has fewer nodes than the bound on the depth of a
text; else the text is refused as one that is nested too deeply. -/
theorem read_nested (levels : List (String × String)) (last : String)
    (h : ∀ level ∈ levels, isReserved level.2 = false) :
    Stats.measure (nested levels last) = ⟨levels.length + 1, levels.length + 1⟩ ∧
      (levels.length + 1 < Json.depthBound → read (nestedText levels last) = .ok (.node (nested levels last))) ∧
      (Json.depthBound ≤ levels.length + 1 →
        ∃ e, read (nestedText levels last) = .error e ∧ e.cause = .tooDeep) :=
  ⟨measure_nested levels last, fun hlength => read_nestedText h hlength last, fun hlength =>
    error_of_nestedText hlength last⟩

/-- One node more than can be read. -/
def deepLevels : List (String × String) := List.replicate 127 ("A", "x")

theorem length_deepLevels : deepLevels.length = 127 := List.length_replicate

theorem isReserved_deepLevels : ∀ level ∈ deepLevels, isReserved level.2 = false := by
  intro level hlevel
  rw [List.eq_of_mem_replicate hlevel]
  rfl

theorem depthBound_le_deepLevels : Json.depthBound ≤ deepLevels.length + 1 := by
  rw [length_deepLevels]
  decide

theorem read_nested_deepLevels :
    (∀ level ∈ deepLevels, isReserved level.2 = false) ∧ Json.depthBound ≤ deepLevels.length + 1 ∧
      ∃ e, read (nestedText deepLevels "A") = .error e ∧ e.cause = .tooDeep := by
  have hread := read_nested deepLevels "A" isReserved_deepLevels
  exact ⟨isReserved_deepLevels, depthBound_le_deepLevels, hread.2.2 depthBound_le_deepLevels⟩

/-- Not every chain can be read from its document. -/
theorem not_forall_read_nestedText :
    ¬ ∀ levels : List (String × String), (∀ level ∈ levels, isReserved level.2 = false) → ∀ last,
      ∃ n, read (nestedText levels last) = .ok (.node n) ∧
        Stats.measure n = ⟨levels.length + 1, levels.length + 1⟩ := by
  intro h
  obtain ⟨n, hread, -⟩ := h deepLevels isReserved_deepLevels "A"
  obtain ⟨e, herror, -⟩ := error_of_nestedText depthBound_le_deepLevels "A"
  rw [hread] at herror
  cases herror

end Estree

end PrototypeScan
