import Mathlib.Tactic.Linarith
import Mathlib.Tactic.Ring
import PrototypeScan.Number.Binary64

/-!
Doubles in the order of their bits. Each one without a sign is one unit in its last place above the one before, and
where a significand gets one bit more than it has room for, the exponent takes it up. The bits go on past those of
infinity here: what follows the largest double is the number that would come next.
-/
namespace PrototypeScan.Binary64

theorem cast_twoTo (n : Nat) : ((twoTo n : Nat) : ℚ) = 2 ^ n := Nat.cast_pow 2 n

theorem two_zpow_pos (q : Int) : (0 : ℚ) < 2 ^ q := zpow_pos two_pos q

/-- The significand and the exponent of the double with the given bits, none of them the sign. -/
def partsAt (k : Nat) : Nat × Int :=
  if k / twoTo 52 = 0 then (k % twoTo 52, leastExponent)
  else (k % twoTo 52 + twoTo 52, ((k / twoTo 52 : Nat) : Int) - 1075)

theorem parts_eq (x : Binary64) : x.parts = partsAt x.magnitude := rfl

/-- The number for which given bits stand, without bound for the exponent. -/
def point (k : Nat) : ℚ := (partsAt k).1 * 2 ^ (partsAt k).2

theorem partsAt_add (a : Nat) {f : Nat} (hf : f < twoTo 52) :
    partsAt (a * twoTo 52 + f) = if a = 0 then (f, leastExponent) else (f + twoTo 52, (a : Int) - 1075) := by
  have hdiv : (a * twoTo 52 + f) / twoTo 52 = a := by
    rw [Nat.add_comm, Nat.add_mul_div_right _ _ (by decide), Nat.div_eq_of_lt hf, Nat.zero_add]
  have hmod : (a * twoTo 52 + f) % twoTo 52 = f := by
    rw [Nat.add_comm, Nat.add_mul_mod_self_right, Nat.mod_eq_of_lt hf]
  rw [partsAt, hdiv, hmod]

/-- The bits for a significand and an exponent. -/
def bitsFor (m : Nat) (q : Int) : Nat :=
  if m < twoTo 52 then m else (q + 1075).toNat * twoTo 52 + (m - twoTo 52)

/-- That a significand has the bits that its exponent needs, or one more than all of them. -/
structure Fits (m : Nat) (q : Int) : Prop where
  exponent : leastExponent ≤ q
  le : m ≤ twoTo 53
  ge : q = leastExponent ∨ twoTo 52 ≤ m

theorem point_bitsFor {m : Nat} {q : Int} (h : Fits m q) : point (bitsFor m q) = m * 2 ^ q := by
  obtain ⟨hq, hm, hnormal⟩ := h
  rw [leastExponent] at hq hnormal
  rcases Nat.lt_or_ge m (twoTo 52) with hsmall | hlarge
  · obtain rfl := hnormal.resolve_right (Nat.not_le_of_lt hsmall)
    have hparts := partsAt_add 0 hsmall
    rw [Nat.zero_mul, Nat.zero_add, if_pos rfl] at hparts
    rw [bitsFor, if_pos hsmall, point, hparts, leastExponent]
  have ha : (q + 1075).toNat ≠ 0 := by omega
  have hexponent : (((q + 1075).toNat : Nat) : Int) - 1075 = q := by omega
  rw [bitsFor, if_neg (Nat.not_lt_of_le hlarge)]
  rcases Nat.lt_or_eq_of_le hm with hlt | rfl
  · have hfraction : m - twoTo 52 < twoTo 52 := by
      have : twoTo 53 = twoTo 52 + twoTo 52 := rfl
      omega
    rw [point, partsAt_add _ hfraction, if_neg ha, hexponent, Nat.sub_add_cancel hlarge]
  · -- A significand with one bit too many is the least one of the next exponent.
    have hcarry : (q + 1075).toNat * twoTo 52 + (twoTo 53 - twoTo 52) = ((q + 1075).toNat + 1) * twoTo 52 + 0 := by
      rw [Nat.succ_mul, Nat.add_zero, show twoTo 53 - twoTo 52 = twoTo 52 from rfl]
    have hnext : (((q + 1075).toNat + 1 : Nat) : Int) - 1075 = q + 1 := by omega
    rw [hcarry, point, partsAt_add _ (by decide), if_neg (Nat.succ_ne_zero _), hnext, cast_twoTo, Nat.zero_add,
      cast_twoTo, zpow_add_one₀ two_ne_zero]
    ring

theorem fits_partsAt (k : Nat) : Fits (partsAt k).1 (partsAt k).2 ∧ (partsAt k).1 < twoTo 53 := by
  have hfraction : k % twoTo 52 < twoTo 52 := Nat.mod_lt k (by decide)
  have hdouble : twoTo 53 = twoTo 52 + twoTo 52 := rfl
  rw [partsAt]
  generalize k / twoTo 52 = a, k % twoTo 52 = f at *
  split
  · exact ⟨⟨le_rfl, by omega, .inl rfl⟩, by omega⟩
  · refine ⟨⟨?_, by omega, .inr (Nat.le_add_left _ _)⟩, by omega⟩
    rw [leastExponent]
    omega

theorem bitsFor_partsAt (k : Nat) : bitsFor (partsAt k).1 (partsAt k).2 = k := by
  have hfraction : k % twoTo 52 < twoTo 52 := Nat.mod_lt k (by decide)
  have hsplit := Nat.div_add_mod' k (twoTo 52)
  rw [partsAt]
  generalize k / twoTo 52 = a, k % twoTo 52 = f at *
  split
  · next h => rw [bitsFor, if_pos hfraction, ← hsplit, h, Nat.zero_mul, Nat.zero_add]
  · have hexponent : ((a : Int) - 1075 + 1075).toNat = a := by omega
    rw [bitsFor, if_neg (Nat.not_lt_of_le (Nat.le_add_left _ _)), hexponent, Nat.add_sub_cancel, hsplit]

theorem bitsFor_succ {m : Nat} {q : Int} (h : Fits m q) : bitsFor (m + 1) q = bitsFor m q + 1 := by
  obtain ⟨hq, hm, hnormal⟩ := h
  unfold bitsFor
  split
  · rw [if_pos (by omega)]
  · rcases Nat.lt_or_ge m (twoTo 52) with hsmall | hlarge
    · obtain rfl := hnormal.resolve_right (Nat.not_le_of_lt hsmall)
      obtain rfl : m = twoTo 52 - 1 := by omega
      rfl
    · rw [if_neg (Nat.not_lt_of_le hlarge), Nat.succ_sub hlarge, Nat.add_succ]

theorem bitsFor_mod_two (m : Nat) (q : Int) : bitsFor m q % 2 = m % 2 := by
  have heven : twoTo 52 % 2 = 0 := by decide
  unfold bitsFor
  split
  · rfl
  · rw [Nat.add_mod, Nat.mul_mod, heven, Nat.mul_zero, Nat.zero_mod]
    omega

/-- The next double is one unit in the last place away. -/
theorem point_succ (k : Nat) : point (k + 1) = point k + 2 ^ (partsAt k).2 := by
  obtain ⟨hfits, hlt⟩ := fits_partsAt k
  have hnext : Fits ((partsAt k).1 + 1) (partsAt k).2 :=
    ⟨hfits.exponent, hlt, hfits.ge.imp_right fun h => Nat.le_succ_of_le h⟩
  have hbits : bitsFor ((partsAt k).1 + 1) (partsAt k).2 = k + 1 := by
    rw [bitsFor_succ hfits, bitsFor_partsAt]
  rw [← hbits, point_bitsFor hnext, point, Nat.cast_succ, add_one_mul]

theorem point_strictMono : StrictMono point :=
  strictMono_nat_of_lt_succ fun k => by
    rw [point_succ]
    exact lt_add_of_pos_right _ (two_zpow_pos _)

theorem point_zero : point 0 = 0 := by
  have hparts := partsAt_add 0 (show 0 < twoTo 52 by decide)
  rw [Nat.zero_mul, if_pos rfl] at hparts
  rw [point, hparts, Nat.cast_zero, zero_mul]

theorem point_nonneg (k : Nat) : 0 ≤ point k := by
  rw [← point_zero]
  exact point_strictMono.monotone (Nat.zero_le k)

/-- A double is a multiple of a unit, or its exponent is less and so it is below all that have this unit. -/
theorem point_cases (k : Nat) (q : Int) :
    (∃ i : Nat, point k = i * 2 ^ q) ∨ leastExponent < q ∧ point k < 2 ^ 52 * 2 ^ q := by
  obtain ⟨hfits, hlt⟩ := fits_partsAt k
  rcases lt_or_ge (partsAt k).2 q with hexponent | hexponent
  · refine .inr ⟨Int.lt_of_le_of_lt hfits.exponent hexponent, ?_⟩
    have hm : ((partsAt k).1 : ℚ) < 2 ^ 53 := by
      rw [← cast_twoTo]
      exact Nat.cast_lt.2 hlt
    calc point k < 2 ^ 53 * 2 ^ (partsAt k).2 := mul_lt_mul_of_pos_right hm (two_zpow_pos _)
      _ ≤ 2 ^ 53 * 2 ^ (q - 1) := by gcongr <;> norm_num; omega
      _ = 2 ^ 52 * 2 ^ q := by rw [zpow_sub_one₀ two_ne_zero]; ring
  · obtain ⟨d, hd⟩ := Int.le.dest hexponent
    refine .inl ⟨(partsAt k).1 * 2 ^ d, ?_⟩
    rw [point, ← hd, zpow_add₀ two_ne_zero, zpow_natCast]
    push_cast
    ring

theorem point_infinityBits : point infinityBits = 2 ^ 1024 := by
  have hparts : partsAt infinityBits = (twoTo 52, 972) := by decide
  rw [point, hparts, cast_twoTo, ← zpow_natCast, ← zpow_natCast, ← zpow_add₀ two_ne_zero]
  rfl

theorem point_largest : point (infinityBits - 1) = 2 ^ 1024 - 2 ^ 971 := by
  have hexponent : (partsAt (infinityBits - 1)).2 = 971 := by decide
  have hnext := point_succ (infinityBits - 1)
  rw [hexponent, Nat.sub_add_cancel (by decide), point_infinityBits] at hnext
  rw [hnext]
  norm_cast
  ring

end PrototypeScan.Binary64
