import PrototypeScan.Finding.Json

/-!
A finding that is written as JSON is read back as it was.
-/
namespace PrototypeScan

theorem mapM_map_eq_some {α β γ : Type} {write : α → β} {read? : β → Option γ} {f : α → γ} {as : List α}
    (h : ∀ a ∈ as, read? (write a) = some (f a)) : (as.map write).mapM read? = some (as.map f) := by
  induction as with
  | nil => rfl
  | cons a as ih =>
    rw [List.forall_mem_cons] at h
    rw [List.map_cons, List.mapM_cons, h.1, ih h.2]
    rfl

theorem toNat_lt_twoTo (n : UInt32) : 0 ≤ (n.toNat : Int) ∧ (n.toNat : Int) < (twoTo 32 : Nat) := by
  have hlt : n.toNat < UInt32.size := n.toNat_lt_size
  have hsize : UInt32.size = twoTo 32 := by decide
  rw [hsize] at hlt
  exact ⟨Int.natCast_nonneg _, Int.ofNat_lt.2 hlt⟩

namespace Line

theorem ofJson?_toJson (l : Line) : ofJson? l.toJson = some l := by
  cases l with
  | known n =>
    rw [toJson, Json.ofNat, ofJson?, if_pos (toNat_lt_twoTo n), Int.toNat_natCast, UInt32.ofNat_toNat]
  | unknown => rfl

end Line

namespace Severity

theorem ofJson?_toJson (s : Severity) : ofJson? s.toJson = some s := by
  cases s <;> rfl

end Severity

namespace Finding

theorem columnOfJson?_ofNat (n : UInt32) : columnOfJson? (.ofNat n.toNat) = some n := by
  rw [Json.ofNat, columnOfJson?, if_pos (toNat_lt_twoTo n), Int.toNat_natCast, UInt32.ofNat_toNat]

theorem columnOfJson?_nullable (n : UInt32) :
    Json.nullable? columnOfJson? (.ofNat n.toNat) = some (some n) := by
  have hread := columnOfJson?_ofNat n
  rw [Json.ofNat] at hread ⊢
  rw [Json.nullable?, hread]
  · rfl
  · exact Json.noConfusion

theorem ofJson?_toJson (f : Finding) : ofJson? f.toJson = some f := by
  obtain ⟨ruleName, line, column, propertyName, snippet, severity⟩ := f
  cases column with
  | none =>
    simp [ofJson?, toJson, Json.parts?, keys, Json.part?, Json.entry?, Json.asString?,
      Line.ofJson?_toJson, Severity.ofJson?_toJson]
  | some n =>
    simp [ofJson?, toJson, Json.parts?, keys, Json.part?, Json.entry?, Json.asString?,
      Line.ofJson?_toJson, Severity.ofJson?_toJson, columnOfJson?_nullable]

theorem listOfJson?_listToJson (fs : List Finding) : listOfJson? (listToJson fs) = some fs := by
  have hfs := mapM_map_eq_some (f := id) fun f (_ : f ∈ fs) => ofJson?_toJson f
  rw [List.map_id] at hfs
  exact hfs

end Finding

end PrototypeScan
