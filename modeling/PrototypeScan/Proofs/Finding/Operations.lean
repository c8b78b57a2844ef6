import Mathlib.Data.List.Induction
import PrototypeScan.Proofs.Finding.Filtered

/-!
Collectors at work. Whatever is offered to a new collector, and however it is offered, one finding or several at a
time, it has kept the first of each key, and its index and its counter agree with that.
-/
namespace PrototypeScan

namespace Finding

/-- The findings that are the first with their keys, told by their positions. -/
def firstOccurrences (fs : List Finding) : List Finding :=
  (fs.zipIdx.filter fun p => p.1.key ∉ (fs.take p.2).map key).map Prod.fst

theorem firstOccurrences_concat (fs : List Finding) (f : Finding) :
    firstOccurrences (fs ++ [f]) = firstOccurrences fs ++ if f.key ∈ fs.map key then [] else [f] := by
  have hbefore : ∀ p ∈ fs.zipIdx, (fs ++ [f]).take p.2 = fs.take p.2 := by
    intro p hp
    have hlt : p.2 < fs.length := by simpa using List.snd_lt_of_mem_zipIdx hp
    exact List.take_append_of_le_length hlt.le
  have hfilter : fs.zipIdx.filter (fun p => p.1.key ∉ ((fs ++ [f]).take p.2).map key) =
      fs.zipIdx.filter fun p => p.1.key ∉ (fs.take p.2).map key :=
    List.filter_congr fun p hp => by rw [hbefore p hp]
  rw [firstOccurrences, List.zipIdx_append, List.filter_append, hfilter, List.map_append, ← firstOccurrences,
    Nat.zero_add, List.zipIdx_singleton, List.filter_cons, List.filter_nil, List.take_left]
  by_cases hf : f.key ∈ fs.map key <;> simp [hf]

theorem firstOfEachFrom_concat (seen : List Key) (fs : List Finding) (f : Finding) :
    firstOfEachFrom seen (fs ++ [f]) =
      firstOfEachFrom seen fs ++ if f.key ∈ seen ∨ f.key ∈ fs.map key then [] else [f] := by
  induction fs generalizing seen with
  | nil => simp [firstOfEachFrom]
  | cons g fs ih =>
    rw [List.cons_append, firstOfEachFrom, firstOfEachFrom, ih, ih]
    by_cases hg : g.key ∈ seen
    · have hsame : f.key ∈ seen ∨ f.key ∈ (g :: fs).map key ↔ f.key ∈ seen ∨ f.key ∈ fs.map key := by
        rw [List.map_cons, List.mem_cons]
        constructor
        · rintro (hf | heq | hf)
          · exact .inl hf
          · exact .inl (heq ▸ hg)
          · exact .inr hf
        · exact Or.imp_right .inr
      simp only [hg, if_true, hsame]
    · simp only [hg, if_false, List.cons_append, List.map_cons, List.mem_cons, or_assoc, or_left_comm]

theorem firstOfEach_eq_firstOccurrences (fs : List Finding) : firstOfEach fs = firstOccurrences fs := by
  induction fs using List.reverseRecOn with
  | nil => rfl
  | append_singleton fs f ih =>
    rw [firstOccurrences_concat, ← ih, firstOfEach, firstOfEachFrom_concat]
    simp only [List.not_mem_nil, false_or]
    rfl

/-- That a report lists the findings that were kept: by line, the unknown one last, and those of one line in the
order in which they came. -/
structure Reports (report kept : List Finding) : Prop where
  perm : report.Perm kept
  lines : report.Pairwise fun f g => ∀ n, g.line = .known n → ∃ m, f.line = .known m ∧ m ≤ n
  stable : ∀ line, report.filter (·.line = line) = kept.filter (·.line = line)

theorem reports_byLine (kept : List Finding) : Reports (byLine kept) kept := by
  rw [byLine_eq_insertionSort]
  refine ⟨List.perm_insertionSort _ kept, ?_, fun line => ?_⟩
  · refine (pairwise_insertionSort_of_rank (fun f : Finding => f.line.rank) kept).imp fun {f g} hle n hn => ?_
    rw [hn] at hle
    cases hf : f.line with
    | known m =>
      rw [hf] at hle
      exact ⟨m, rfl, UInt32.le_iff_toNat_le.2 hle⟩
    | unknown =>
      rw [hf] at hle
      exact absurd hle (Nat.not_le_of_lt (Line.rank_known_lt n))
  · -- Those of one line stand in order already, so inserting them changes nothing.
    rw [filter_insertionSort_of_rank (fun f : Finding => f.line.rank)]
    refine (List.pairwise_filter.2 (List.pairwise_of_forall fun f g hf hg => ?_)).insertionSort_eq
    rw [of_decide_eq_true hf, of_decide_eq_true hg]

theorem mem_keys_firstOccurrences {fs : List Finding} {k : Key} :
    k ∈ (firstOccurrences fs).map key ↔ k ∈ fs.map key := by
  rw [← firstOfEach_eq_firstOccurrences, firstOfEach, mem_keys_firstOfEachFrom]
  exact and_iff_left List.not_mem_nil

end Finding

namespace Collector
open Finding

/-- What is done with a collector while findings come in. -/
inductive Operation where
  | push (f : Finding)
  | extend (fs : List Finding)

namespace Operation

/-- The findings that an operation offers. -/
def offered : Operation → List Finding
  | push f => [f]
  | extend fs => fs

def apply (c : Collector) : Operation → Collector
  | push f => (c.offer f).2
  | extend fs => c.extend fs

end Operation

/-- A new collector after operations. -/
def after (operations : List Operation) : Collector := operations.foldl Operation.apply empty

theorem after_concat (operations : List Operation) (o : Operation) :
    after (operations ++ [o]) = o.apply (after operations) := by
  rw [after, List.foldl_append]
  rfl

/-- That a collector has kept the first of each key of the findings offered to it, and that its index and its counter
agree with what it has kept. -/
structure KeepsFirst (c : Collector) (fs : List Finding) : Prop where
  findings_eq : c.findings = firstOccurrences fs
  seen_iff : ∀ k, c.seen.contains k = true ↔ k ∈ c.findings.map key
  size_eq : c.size = c.findings.length
  size_add_duplicates : c.size + c.duplicates = fs.length

section Steps

variable {c : Collector} {fs : List Finding}

theorem size_eq_length (c : Collector) : c.size = c.findings.length := by
  rw [size, findings, List.length_reverse]

theorem size_add_duplicates_push (c : Collector) (f : Finding) :
    (c.push f).size + (c.push f).duplicates = c.size + c.duplicates + 1 := by
  unfold push
  split
  · rfl
  · simp only [size, List.length_cons]
    omega

theorem keepsFirst_empty : empty.KeepsFirst [] := ⟨rfl, fun k => by simp [empty, findings], rfl, rfl⟩

theorem KeepsFirst.mem_keys_iff (h : c.KeepsFirst fs) {k : Key} : k ∈ c.findings.map key ↔ k ∈ fs.map key := by
  rw [h.findings_eq, mem_keys_firstOccurrences]

theorem KeepsFirst.push (h : c.KeepsFirst fs) (f : Finding) : (c.push f).KeepsFirst (fs ++ [f]) := by
  have hcount := size_add_duplicates_push c f
  rw [h.size_add_duplicates] at hcount
  by_cases hf : f.key ∈ c.findings.map key
  · obtain ⟨hseen, hfindings⟩ := push_of_mem h.seen_iff hf
    refine ⟨?_, ?_, size_eq_length _, by rw [hcount, List.length_append, List.length_singleton]⟩
    · rw [firstOccurrences_concat, if_pos (h.mem_keys_iff.1 hf), List.append_nil, hfindings, h.findings_eq]
    · rw [hfindings]
      exact hseen
  · obtain ⟨hseen, hfindings⟩ := push_of_not_mem h.seen_iff hf
    refine ⟨?_, fun k => ?_, size_eq_length _, by rw [hcount, List.length_append, List.length_singleton]⟩
    · rw [firstOccurrences_concat, if_neg (mt h.mem_keys_iff.2 hf), hfindings, h.findings_eq]
    · rw [hseen k, hfindings, List.map_append, List.mem_append, List.mem_cons, List.map_singleton,
        List.mem_singleton, or_comm]

theorem KeepsFirst.extend (h : c.KeepsFirst fs) (gs : List Finding) : (c.extend gs).KeepsFirst (fs ++ gs) := by
  induction gs generalizing c fs with
  | nil => rwa [List.append_nil]
  | cons g gs ih =>
    have hrest := ih (h.push g)
    rwa [List.append_assoc] at hrest

theorem KeepsFirst.apply (h : c.KeepsFirst fs) (o : Operation) : (o.apply c).KeepsFirst (fs ++ o.offered) := by
  cases o with
  | push f => exact h.push f
  | extend gs => exact h.extend gs

/-- A collector tells of each finding whether its key is new. -/
theorem KeepsFirst.offer_iff (h : c.KeepsFirst fs) (f : Finding) : (c.offer f).1 = true ↔ f.key ∉ fs.map key := by
  rw [offer, Bool.not_eq_true', ← Bool.not_eq_true, has, h.seen_iff, h.mem_keys_iff]

end Steps

theorem keepsFirst_after (operations : List Operation) :
    (after operations).KeepsFirst (operations.flatMap Operation.offered) := by
  induction operations using List.reverseRecOn with
  | nil => exact keepsFirst_empty
  | append_singleton operations o ih =>
    rw [after_concat, List.flatMap_append, List.flatMap_singleton]
    exact ih.apply o

/-- To extend a collector is to push one finding after the other. -/
theorem after_extend (operations : List Operation) (fs : List Finding) :
    after (operations ++ [.extend fs]) = after (operations ++ fs.map .push) := by
  rw [after_concat, after, after, List.foldl_append, List.foldl_map]
  rfl

/-- At every point of its work a new collector has kept the first of each key among all findings offered so far, and
what it says of the next finding is whether that is another one to keep. Its report lists what it has kept. -/
theorem kept_and_reported (operations : List Operation) :
    (after operations).KeepsFirst (operations.flatMap Operation.offered) ∧
      (∀ f, ((after operations).offer f).1 = true ↔ f.key ∉ (operations.flatMap Operation.offered).map key) ∧
      (∀ fs, after (operations ++ [.extend fs]) = after (operations ++ fs.map .push)) ∧
      Reports (after operations).finish (after operations).findings :=
  ⟨keepsFirst_after operations, (keepsFirst_after operations).offer_iff, after_extend operations, reports_byLine _⟩

end Collector

end PrototypeScan
