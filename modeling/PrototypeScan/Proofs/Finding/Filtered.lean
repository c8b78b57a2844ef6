import PrototypeScan.Proofs.Finding.Collected

/-!
Collecting findings and leaving some of them out may be done in either order, as long as findings with one
key stay or go together.
-/
namespace PrototypeScan

section Sorting

variable {α : Type} (rank : α → Nat) (p : α → Bool)

theorem filter_orderedInsert_of_rank {l : List α} (hl : l.Pairwise fun a b => rank a ≤ rank b) (a : α) :
    (l.orderedInsert (fun a b => rank a ≤ rank b) a).filter p =
      if p a then (l.filter p).orderedInsert (fun a b => rank a ≤ rank b) a else l.filter p := by
  induction l with
  | nil => by_cases ha : p a <;> simp [ha]
  | cons b l ih =>
    rw [List.pairwise_cons] at hl
    rw [List.orderedInsert_cons]
    by_cases hab : rank a ≤ rank b
    · -- Everything that stays behind `a` has a rank that is no smaller, so `a` stays in front.
      have hback : ∀ c ∈ (b :: l).filter p, rank a ≤ rank c := by
        intro c hc
        rcases List.mem_cons.1 (List.mem_filter.1 hc).1 with rfl | hcl
        · exact hab
        · exact hab.trans (hl.1 c hcl)
      have hfirst : ((b :: l).filter p).orderedInsert (fun a b => rank a ≤ rank b) a =
          a :: (b :: l).filter p :=
        @orderedInsert_of_split _ (fun a b => rank a ≤ rank b) _ a [] _ (by simp) hback
      rw [if_pos hab, List.filter_cons]
      split
      · exact hfirst.symm
      · rfl
    · rw [if_neg hab, List.filter_cons, ih hl.2, List.filter_cons]
      by_cases hb : p b
      · rw [if_pos hb, if_pos hb, List.orderedInsert_cons, if_neg hab]
        split <;> rfl
      · rw [if_neg hb, if_neg hb]

theorem pairwise_insertionSort_of_rank (l : List α) :
    (l.insertionSort fun a b => rank a ≤ rank b).Pairwise fun a b => rank a ≤ rank b := by
  have : Std.Total fun a b : α => rank a ≤ rank b := ⟨fun a b => Nat.le_total _ _⟩
  have : IsTrans α fun a b => rank a ≤ rank b := ⟨fun _ _ _ => Nat.le_trans⟩
  exact List.pairwise_insertionSort _ l

theorem filter_insertionSort_of_rank (l : List α) :
    (l.insertionSort fun a b => rank a ≤ rank b).filter p =
      (l.filter p).insertionSort fun a b => rank a ≤ rank b := by
  induction l with
  | nil => rfl
  | cons a l ih =>
    have hsorted := pairwise_insertionSort_of_rank rank l
    rw [List.insertionSort_cons, filter_orderedInsert_of_rank rank p hsorted, ih, List.filter_cons]
    split <;> rfl

end Sorting

namespace Finding

variable (keep : Key → Bool)

/-- What was seen matters only as far as it may stay. -/
theorem filter_firstOfEachFrom {seen seen' : List Key} (fs : List Finding)
    (hseen : ∀ k, keep k → (k ∈ seen ↔ k ∈ seen')) :
    (firstOfEachFrom seen fs).filter (fun f => keep f.key) =
      firstOfEachFrom seen' (fs.filter fun f => keep f.key) := by
  induction fs generalizing seen seen' with
  | nil => rfl
  | cons f fs ih =>
    rw [firstOfEachFrom, List.filter_cons]
    by_cases hkeep : keep f.key
    · rw [if_pos hkeep, firstOfEachFrom]
      have hboth : f.key ∈ seen ↔ f.key ∈ seen' := hseen _ hkeep
      by_cases hf : f.key ∈ seen
      · rw [if_pos hf, if_pos (hboth.1 hf), ih hseen]
      · rw [if_neg hf, if_neg (mt hboth.2 hf), List.filter_cons, if_pos hkeep]
        refine congrArg (f :: ·) (ih fun k hk => ?_)
        rw [List.mem_cons, List.mem_cons, hseen k hk]
    · rw [if_neg hkeep]
      split
      · exact ih hseen
      · rw [List.filter_cons, if_neg hkeep]
        refine ih fun k hk => ?_
        have hne : k ≠ f.key := by
          rintro rfl
          exact hkeep hk
        rw [List.mem_cons, or_iff_right hne, hseen k hk]

/-- The part of a report with certain keys is the report on the findings with these keys. -/
theorem filter_collected (fs : List Finding) :
    (collected fs).filter (fun f => keep f.key) = collected (fs.filter fun f => keep f.key) := by
  rw [collected, filter_insertionSort_of_rank, firstOfEach,
    filter_firstOfEachFrom keep fs fun _ _ => Iff.rfl]
  rfl

end Finding

end PrototypeScan
