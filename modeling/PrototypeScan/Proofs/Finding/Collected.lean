import Mathlib.Data.List.Sort
import PrototypeScan.Finding.Collector

/-!
What a collector reports, in terms of the whole list of findings that were offered to it: the first one of
each key, inserted by line. The collector itself sees one finding at a time, keeps an index of keys in a
hash set, and sorts by merging.
-/
namespace PrototypeScan

section Sorting

variable {α : Type}

theorem orderedInsert_of_split (r : α → α → Prop) [DecidableRel r] {a : α} {front back : List α}
    (hfront : ∀ b ∈ front, ¬ r a b) (hback : ∀ b ∈ back, r a b) :
    (front ++ back).orderedInsert r a = front ++ a :: back := by
  rw [List.orderedInsert_eq_take_drop, List.takeWhile_append_of_pos (by simpa using hfront),
    List.dropWhile_append_of_pos (by simpa using hfront)]
  cases back with
  | nil => simp
  | cons b back => simp [hback b (by simp)]

/-- Merging and inserting put the same list in order, also where several entries have one rank. -/
theorem mergeSort_eq_insertionSort_of_rank (rank : α → Nat) (l : List α) :
    l.mergeSort (fun a b => decide (rank a ≤ rank b)) =
      l.insertionSort (fun a b => rank a ≤ rank b) := by
  have trans : ∀ a b c : α, decide (rank a ≤ rank b) → decide (rank b ≤ rank c) →
      decide (rank a ≤ rank c) := by
    intro a b c
    simp only [decide_eq_true_eq]
    exact Nat.le_trans
  have total : ∀ a b : α, decide (rank a ≤ rank b) || decide (rank b ≤ rank a) := by
    intro a b
    simpa using Nat.le_total (rank a) (rank b)
  induction l with
  | nil => simp
  | cons a l ih =>
    obtain ⟨front, back, hcons, hl, hfront⟩ := List.mergeSort_cons trans total a l
    have hsorted := List.pairwise_mergeSort trans total (a :: l)
    rw [hcons, List.pairwise_append, List.pairwise_cons] at hsorted
    have hback : ∀ b ∈ back, rank a ≤ rank b := by simpa using hsorted.2.1.1
    rw [List.insertionSort_cons, ← ih, hcons, hl]
    exact (orderedInsert_of_split _ (by simpa using hfront) hback).symm

end Sorting

namespace Line

/-- The place of a line among all lines. The unknown one comes behind every number of 32 bits. -/
def rank : Line → Nat
  | known n => n.toNat
  | unknown => UInt32.size

theorem rank_known_lt (n : UInt32) : (known n).rank < unknown.rank := n.toNat_lt

theorem le_eq_rank (a b : Line) : a.le b = decide (a.rank ≤ b.rank) := by
  cases a with
  | known n => cases b with
    | known m =>
      rw [Bool.eq_iff_iff, decide_eq_true_iff]
      simp only [le, compare, rank, bne_iff_ne]
      exact Nat.compare_ne_gt
    | unknown => simp [le, compare, (rank_known_lt n).le]
  | unknown => cases b with
    | known m => simp [le, compare, rank_known_lt m]
    | unknown => simp [le, compare]

end Line

namespace Finding

/-- The findings of a report: the first of each key, inserted by line. -/
def collected (fs : List Finding) : List Finding :=
  (firstOfEach fs).insertionSort fun f g => f.line.rank ≤ g.line.rank

theorem byLine_eq_insertionSort (fs : List Finding) :
    byLine fs = fs.insertionSort fun f g => f.line.rank ≤ g.line.rank := by
  simp only [byLine, Line.le_eq_rank]
  exact mergeSort_eq_insertionSort_of_rank (fun f => f.line.rank) fs

theorem mem_keys_firstOfEachFrom {seen : List Key} {fs : List Finding} {k : Key} :
    k ∈ (firstOfEachFrom seen fs).map key ↔ k ∈ fs.map key ∧ k ∉ seen := by
  induction fs generalizing seen with
  | nil => simp [firstOfEachFrom]
  | cons f fs ih =>
    rw [firstOfEachFrom, List.map_cons, List.mem_cons]
    split
    · next hf =>
      rw [ih]
      constructor
      · exact fun ⟨hk, hseen⟩ => ⟨.inr hk, hseen⟩
      · rintro ⟨rfl | hk, hseen⟩
        · exact absurd hf hseen
        · exact ⟨hk, hseen⟩
    · next hf =>
      rw [List.map_cons, List.mem_cons, ih, List.mem_cons, not_or]
      constructor
      · rintro (rfl | ⟨hk, -, hseen⟩)
        · exact ⟨.inl rfl, hf⟩
        · exact ⟨.inr hk, hseen⟩
      · rintro ⟨hk, hseen⟩
        by_cases heq : k = f.key
        · exact .inl heq
        · exact .inr ⟨hk.resolve_left heq, heq, hseen⟩

/-- A report has the keys of everything that was found. -/
theorem mem_keys_collected {fs : List Finding} {k : Key} :
    k ∈ (collected fs).map key ↔ k ∈ fs.map key := by
  have hperm := (List.perm_insertionSort (fun f g : Finding => f.line.rank ≤ g.line.rank)
    (firstOfEach fs)).map key
  rw [collected, hperm.mem_iff, firstOfEach, mem_keys_firstOfEachFrom]
  simp

theorem mem_map_collected {β : Type} (g : Key → β) (fs : List Finding) {b : β} :
    b ∈ (collected fs).map (fun f => g f.key) ↔ b ∈ fs.map fun f => g f.key := by
  have hmap (gs : List Finding) : gs.map (fun f => g f.key) = (gs.map key).map g := by
    rw [List.map_map]
    rfl
  rw [hmap, hmap, List.mem_map, List.mem_map]
  simp only [mem_keys_collected]

theorem mem_of_mem_firstOfEachFrom {seen : List Key} {fs : List Finding} {f : Finding}
    (h : f ∈ firstOfEachFrom seen fs) : f ∈ fs := by
  induction fs generalizing seen with
  | nil => exact h
  | cons g fs ih =>
    rw [firstOfEachFrom] at h
    split at h
    · exact List.mem_cons_of_mem _ (ih h)
    · rcases List.mem_cons.1 h with rfl | h
      · exact List.mem_cons_self
      · exact List.mem_cons_of_mem _ (ih h)

theorem mem_of_mem_collected {fs : List Finding} {f : Finding} (h : f ∈ collected fs) : f ∈ fs := by
  rw [collected, (List.perm_insertionSort _ _).mem_iff] at h
  exact mem_of_mem_firstOfEachFrom h

end Finding

namespace Collector

/-- The index of a collector has exactly the given keys. -/
def Indexes (c : Collector) (keys : List Finding.Key) : Prop :=
  ∀ k, c.seen.contains k = true ↔ k ∈ keys

theorem indexes_empty : empty.Indexes [] := by
  intro k
  simp [empty]

theorem push_of_mem {c : Collector} {keys : List Finding.Key} {f : Finding} (h : c.Indexes keys)
    (hf : f.key ∈ keys) : (c.push f).Indexes keys ∧ (c.push f).findings = c.findings := by
  have hhas : c.has f = true := (h f.key).2 hf
  simp only [push, hhas, if_true]
  exact ⟨h, rfl⟩

theorem push_of_not_mem {c : Collector} {keys : List Finding.Key} {f : Finding} (h : c.Indexes keys)
    (hf : f.key ∉ keys) :
    (c.push f).Indexes (f.key :: keys) ∧ (c.push f).findings = c.findings ++ [f] := by
  have hhas : c.has f = false := Bool.eq_false_iff.2 fun hf' => hf ((h f.key).1 hf')
  simp only [push, hhas, Bool.false_eq_true, if_false]
  refine ⟨fun k => ?_, by simp [findings]⟩
  have hk := h k
  rw [Std.HashSet.contains_insert, Bool.or_eq_true, hk, List.mem_cons, beq_iff_eq, eq_comm]

/-- A collector that has been offered `fs` keeps, behind what it had, the first finding of each key that
is new to it. -/
theorem findings_extend {c : Collector} {keys : List Finding.Key} (fs : List Finding)
    (h : c.Indexes keys) :
    (c.extend fs).findings = c.findings ++ Finding.firstOfEachFrom keys fs := by
  induction fs generalizing c keys with
  | nil => simp [extend, Finding.firstOfEachFrom]
  | cons f fs ih =>
    rw [extend, List.foldl_cons, ← extend, Finding.firstOfEachFrom]
    by_cases hf : f.key ∈ keys
    · obtain ⟨hindex, hkept⟩ := push_of_mem h hf
      rw [ih hindex, hkept, if_pos hf]
    · obtain ⟨hindex, hkept⟩ := push_of_not_mem h hf
      rw [ih hindex, hkept, if_neg hf, List.append_assoc, List.singleton_append]

theorem finish_extend_empty (fs : List Finding) :
    (empty.extend fs).finish = Finding.collected fs := by
  have hkept := findings_extend fs indexes_empty
  rw [finish, hkept, Finding.byLine_eq_insertionSort]
  rfl

end Collector

end PrototypeScan
