import Mathlib.Data.Nat.Digits.Defs
import PrototypeScan.Number.Decimal

/-!
Numerals in bases up to sixteen: which number a text of digits denotes, by the values of its digits.
-/
namespace PrototypeScan.Decimal

/-- Digits that denote a number, the most significant one first. There may be zeros in front, and letters
may be of either case. -/
structure Numeral (base : Nat) (digits : List Char) (n : Nat) : Prop where
  ne_nil : digits ≠ []
  values : ∃ ds : List Nat, digits.map digitValue = ds.map some ∧ (∀ d ∈ ds, d < base) ∧
    n = Nat.ofDigits base ds.reverse

theorem readDigits_eq_some {base n : Nat} {digits : List Char} {ds : List Nat}
    (hds : digits.map digitValue = ds.map some) (hlt : ∀ d ∈ ds, d < base) :
    readDigits base n digits = some (Nat.ofDigits base (ds.reverse ++ [n])) := by
  induction ds generalizing digits n with
  | nil =>
    have hnil : digits = [] := by simpa using hds
    simp [hnil, readDigits]
  | cons d ds ih =>
    obtain ⟨c, cs, rfl, hc, hcs⟩ := List.map_eq_cons_iff.1 hds
    obtain ⟨hd, hlt⟩ := List.forall_mem_cons.1 hlt
    have hrest := ih (n := base * n + d) hcs hlt
    have hfirst : Nat.ofDigits base [base * n + d] = Nat.ofDigits base [d, n] := by
      simp [Nat.ofDigits_cons, Nat.add_comm]
    simp only [readDigits, hc, if_pos hd, hrest, List.reverse_cons, List.append_assoc,
      List.singleton_append, Nat.ofDigits_append, hfirst]

theorem Numeral.ofDigits_eq {base n : Nat} {digits : List Char} (h : Numeral base digits n) :
    ofDigits base digits = some n := by
  obtain ⟨hne, ds, hds, hlt, rfl⟩ := h
  have hread := readDigits_eq_some (n := 0) hds hlt
  have hzero : Nat.ofDigits base [0] = 0 := by simp
  rw [Nat.ofDigits_append, hzero, Nat.mul_zero, Nat.add_zero] at hread
  obtain ⟨c, cs, rfl⟩ := List.exists_cons_of_ne_nil hne
  exact hread

/-- Each digit of a numeral has a value below the base. -/
theorem Numeral.exists_digitValue {base n : Nat} {digits : List Char} (h : Numeral base digits n) {c : Char}
    (hc : c ∈ digits) : ∃ d, digitValue c = some d ∧ d < base := by
  obtain ⟨-, ds, hds, hlt, -⟩ := h
  have hmem : digitValue c ∈ ds.map some := by
    rw [← hds]
    exact List.mem_map_of_mem hc
  obtain ⟨d, hd, heq⟩ := List.mem_map.1 hmem
  exact ⟨d, heq.symm, hlt d hd⟩

theorem Numeral.digitValue_ne_none {base n : Nat} {digits : List Char} (h : Numeral base digits n) {c : Char}
    (hc : c ∈ digits) : digitValue c ≠ none := by
  obtain ⟨d, hd, -⟩ := h.exists_digitValue hc
  rw [hd]
  exact Option.some_ne_none d

end PrototypeScan.Decimal
