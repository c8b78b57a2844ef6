import Mathlib
import PrototypeScan.Proofs.Number.Numeral

/-!
Numerals as they are read. The case of letters and zeros in front do not change which number a numeral denotes, and
a decimal without a point or an exponent is read as the nearest double.
-/
namespace PrototypeScan.Decimal

theorem le_iff_toNat_le {a b : Char} : a ≤ b ↔ a.toNat ≤ b.toNat := Iff.rfl

theorem isUpper_iff {c : Char} : c.isUpper = true ↔ 65 ≤ c.toNat ∧ c.toNat ≤ 90 := by
  simp [Char.isUpper, UInt32.le_iff_toNat_le]

theorem digitValue_toLower (c : Char) : digitValue c.toLower = digitValue c := by
  by_cases hupper : c.isUpper = true
  · have hbounds := isUpper_iff.1 hupper
    have hlower : c.toLower.toNat = c.toNat + 32 := by
      rw [Char.toLower_eq_of_isUpper hupper, Char.toNat_ofNat, if_pos (.inl (by omega))]
    simp only [digitValue, Bool.and_eq_true, decide_eq_true_eq, le_iff_toNat_le, hlower, Char.reduceToNat]
    split_ifs <;> first | rfl | omega
  · rw [Char.toLower_eq_of_not_isUpper hupper]

theorem isDigit_of_digitValue {c : Char} {d : Nat} (h : digitValue c = some d) (hd : d < 10) : c.isDigit = true := by
  simp only [digitValue, Bool.and_eq_true, decide_eq_true_eq, le_iff_toNat_le] at h
  split_ifs at h with hdigit
  · exact Char.isDigit_iff_toNat.2 hdigit
  · have := Option.some.inj h
    omega
  · have := Option.some.inj h
    omega

theorem Numeral.toLower {base n : Nat} {digits : List Char} (h : Numeral base digits n) :
    Numeral base (digits.map Char.toLower) n := by
  obtain ⟨hne, ds, hds, hlt⟩ := h
  have hmap : (digits.map Char.toLower).map digitValue = digits.map digitValue := by
    rw [List.map_map]
    exact List.map_congr_left fun c _ => digitValue_toLower c
  exact ⟨by simpa using hne, ds, hmap.trans hds, hlt⟩

theorem Numeral.isDigit {base n : Nat} {digits : List Char} (h : Numeral base digits n) (hbase : base ≤ 10) {c : Char}
    (hc : c ∈ digits) : c.isDigit = true := by
  obtain ⟨d, hd, hlt⟩ := h.exists_digitValue hc
  exact isDigit_of_digitValue hd (hlt.trans_le hbase)

theorem Numeral.map_toLower {base n : Nat} {digits : List Char} (h : Numeral base digits n) (hbase : base ≤ 10) :
    digits.map Char.toLower = digits := by
  refine (List.map_congr_left fun c hc => ?_).trans (List.map_id digits)
  have hdigit := Char.isDigit_iff_toNat.1 (h.isDigit hbase hc)
  refine Char.toLower_eq_of_not_isUpper fun hupper => ?_
  have hbounds := isUpper_iff.1 hupper
  have hnine : '9'.toNat = 57 := rfl
  omega

theorem Numeral.cons_zero {base n : Nat} {digits : List Char} (h : Numeral base digits n) (hbase : 0 < base) :
    Numeral base ('0' :: digits) n := by
  obtain ⟨-, ds, hds, hlt, rfl⟩ := h
  refine ⟨List.cons_ne_nil _ _, 0 :: ds, ?_, List.forall_mem_cons.2 ⟨hbase, hlt⟩, ?_⟩
  · rw [List.map_cons, List.map_cons, hds]
    rfl
  · rw [List.reverse_cons, Nat.ofDigits_append]
    simp

theorem nearest_zero (n : Nat) : nearest false n 0 = .ofNat n := by
  have hsmall : ¬ (0 : Int) + (n.log2 / 3 : Int) < -400 := by omega
  simp only [nearest]
  rw [if_neg (by simp), if_neg hsmall, if_pos le_rfl]
  simp [Binary64.ofNat]

/-- A decimal of digits only is read as the nearest double. -/
theorem Numeral.read?_eq {n : Nat} {digits : List Char} (h : Numeral 10 digits n) :
    read? digits = some (.ofNat n) := by
  have hdigit : ∀ c ∈ digits, c.isDigit = true := fun c hc => h.isDigit le_rfl hc
  have htake : digits.takeWhile Char.isDigit = digits := List.takeWhile_eq_self_iff.2 hdigit
  have hdrop : digits.dropWhile Char.isDigit = [] := List.dropWhile_eq_nil_iff.2 hdigit
  have hparts : parts? digits = some ⟨digits, [], 0⟩ := by
    simp [parts?, htake, hdrop, h.ne_nil]
  have hvalue : value digits = n := by
    obtain ⟨c, cs, rfl⟩ := List.exists_cons_of_ne_nil h.ne_nil
    have hread : readDigits 10 0 (c :: cs) = some n := h.ofDigits_eq
    rw [value, hread, Option.getD_some]
  simp only [read?, hparts, Option.map_some, List.append_nil, hvalue, List.length_nil]
  exact congrArg some (nearest_zero n)

end PrototypeScan.Decimal
