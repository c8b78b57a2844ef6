import Mathlib.Algebra.Order.Field.Power
import Mathlib.Tactic.Positivity
import PrototypeScan.Proofs.Number.Spacing

/-!
Rounding to the nearest double. A quotient is rounded to a whole number of units of one exponent, and no double of
another exponent is nearer. What rounds to the double that would follow the largest one, or to one behind that, is
infinite.
-/
namespace PrototypeScan

section Distances

variable {a b r : ℚ}

/-- The upper one of two numbers is as near as the lower one from the middle between them on. -/
theorem upper_nearer_iff (h : a < b) : |b - r| ≤ |a - r| ↔ a + b ≤ 2 * r := by
  have hsquares : (a - r) ^ 2 - (b - r) ^ 2 = (b - a) * (2 * r - (a + b)) := by ring
  rw [← sq_le_sq, ← sub_nonneg, hsquares, mul_nonneg_iff_of_pos_left (sub_pos.2 h), sub_nonneg]

theorem lower_nearer_iff (h : a < b) : |a - r| ≤ |b - r| ↔ 2 * r ≤ a + b := by
  have hsquares : (b - r) ^ 2 - (a - r) ^ 2 = (b - a) * (a + b - 2 * r) := by ring
  rw [← sq_le_sq, ← sub_nonneg, hsquares, mul_nonneg_iff_of_pos_left (sub_pos.2 h), sub_nonneg]

end Distances

/-- That `f k` is the nearest to `r` among the numbers `f 0`, `f 1` and so on, and that `k` is even where another one
is as near. -/
structure Closest (f : Nat → ℚ) (r : ℚ) (k : Nat) : Prop where
  le : ∀ j, |f k - r| ≤ |f j - r|
  even : ∀ j, j ≠ k → |f j - r| = |f k - r| → k % 2 = 0

theorem Closest.scale {f : Nat → ℚ} {r c : ℚ} {k : Nat} (h : Closest f (r / c) k) (hc : 0 < c) :
    Closest (fun i => f i * c) r k := by
  have hdistance : ∀ i, |f i * c - r| = |f i - r / c| * c := by
    intro i
    rw [← abs_of_pos hc, ← abs_mul, abs_of_pos hc, sub_mul, div_mul_cancel₀ _ hc.ne']
  constructor
  · intro j
    simp only [hdistance]
    exact mul_le_mul_of_nonneg_right (h.le j) hc.le
  · intro j hne heq
    simp only [hdistance] at heq
    exact h.even j hne (mul_right_cancel₀ hc.ne' heq)

/-- Where the numbers ascend, and end at an even place, the nearest of all stands for the nearest of those, and the
end for any number behind it. -/
theorem Closest.min {f : Nat → ℚ} {r : ℚ} {k top : Nat} (h : Closest f r k) (hf : StrictMono f)
    (htop : top % 2 = 0) {j : Nat} (hj : j ≤ top) :
    |f (min k top) - r| ≤ |f j - r| ∧
      (j ≠ min k top → |f j - r| = |f (min k top) - r| → min k top % 2 = 0) := by
  rcases Nat.le_total k top with hk | hk
  · rw [Nat.min_eq_left hk]
    exact ⟨h.le j, h.even j⟩
  rw [Nat.min_eq_right hk]
  rcases Nat.eq_or_lt_of_le hk with rfl | hlt
  · exact ⟨h.le j, h.even j⟩
  refine ⟨?_, fun _ _ => htop⟩
  have hbehind : f top ≤ r := by
    have hmiddle := (upper_nearer_iff (hf hlt)).1 (h.le top)
    linarith [hf hlt]
  have hjtop : f j ≤ f top := hf.monotone hj
  rw [abs_of_nonpos (by linarith), abs_of_nonpos (by linarith)]
  linarith

namespace Binary64

/-! Whole numbers. -/

/-- A rounded quotient is at most a half away, and even if it is as much as that. -/
theorem roundedQuotient_distance (num : Nat) {den : Nat} (hden : 0 < den) :
    2 * |(roundedQuotient num den : ℤ) * den - num| ≤ den ∧
      (2 * |(roundedQuotient num den : ℤ) * den - num| = den → roundedQuotient num den % 2 = 0) := by
  have hsplit : (num : ℤ) = (num / den : Nat) * den + (num % den : Nat) := by
    rw [mul_comm]
    exact_mod_cast (Nat.div_add_mod num den).symm
  have hrest : num % den < den := Nat.mod_lt num hden
  have hlower : ((num / den : Nat) : ℤ) * den - num = -(num % den : Nat) := by linarith
  have hupper : ((num / den + 1 : Nat) : ℤ) * den - num = den - (num % den : Nat) := by
    push_cast at hlower ⊢
    linarith
  rw [roundedQuotient]
  split
  · next h =>
    simp only [gt_iff_lt, Bool.or_eq_true, Bool.and_eq_true, decide_eq_true_eq] at h
    rw [hupper, abs_of_nonneg (by omega)]
    omega
  · next h =>
    simp only [gt_iff_lt, Bool.or_eq_true, Bool.and_eq_true, decide_eq_true_eq] at h
    rw [hlower, abs_neg, abs_of_nonneg (Int.natCast_nonneg _)]
    omega

theorem closest_roundedQuotient (num : Nat) {den : Nat} (hden : 0 < den) :
    Closest Nat.cast (num / den) (roundedQuotient num den) := by
  obtain ⟨hhalf, heven⟩ := roundedQuotient_distance num hden
  generalize roundedQuotient num den = m at hhalf heven ⊢
  have hpos : (0 : ℚ) < den := Nat.cast_pos.2 hden
  have hdistance : |(m : ℚ) - num / den| * 2 = (2 * |(m : ℤ) * den - num| : ℤ) / den := by
    push_cast
    rw [sub_div' hpos.ne', abs_div, abs_of_pos hpos]
    ring
  have hle : |(m : ℚ) - num / den| * 2 ≤ 1 := by
    rw [hdistance, div_le_one hpos]
    exact_mod_cast hhalf
  -- Other whole numbers are at least one away from this one.
  have hother : ∀ i ≠ m, 1 ≤ |(i : ℚ) - num / den| + |(m : ℚ) - num / den| := by
    intro i hne
    have hapart : (1 : ℚ) ≤ |(i : ℚ) - m| := by
      exact_mod_cast Int.one_le_abs (sub_ne_zero.2 (Nat.cast_injective.ne hne : (i : ℤ) ≠ m))
    calc (1 : ℚ) ≤ |(i : ℚ) - m| := hapart
      _ ≤ |(i : ℚ) - num / den| + |num / den - (m : ℚ)| := abs_sub_le _ _ _
      _ = |(i : ℚ) - num / den| + |(m : ℚ) - num / den| := by rw [abs_sub_comm _ (m : ℚ)]
  constructor
  · intro i
    rcases eq_or_ne i m with rfl | hne
    · rfl
    · linarith [hother i hne]
  · intro i hne heq
    have hone : |(m : ℚ) - num / den| * 2 = 1 := by linarith [hother i hne]
    rw [hdistance, div_eq_one_iff_eq hpos.ne'] at hone
    exact heven (by exact_mod_cast hone)

/-! Quotients in units. -/

theorem cast_twoTo_toNat {q : Int} (hq : 0 ≤ q) : ((twoTo q.toNat : Nat) : ℚ) = 2 ^ q := by
  rw [cast_twoTo, ← zpow_natCast, Int.toNat_of_nonneg hq]

theorem cast_twoTo_neg {q : Int} (hq : q < 0) : ((twoTo (-q).toNat : Nat) : ℚ) = (2 ^ q)⁻¹ := by
  rw [cast_twoTo_toNat (by omega), zpow_neg]

theorem closest_scaled (num : Nat) {den : Nat} (hden : 0 < den) (q : Int) :
    Closest (fun i => i * 2 ^ q) (num / den) (scaled num den q) := by
  refine Closest.scale ?_ (two_zpow_pos q)
  rw [scaled]
  split
  · next hq =>
    have hunit : 0 < den * twoTo q.toNat := Nat.mul_pos hden (Nat.two_pow_pos _)
    have hclosest := closest_roundedQuotient num hunit
    rwa [Nat.cast_mul, cast_twoTo_toNat hq, ← div_div] at hclosest
  · next hq =>
    have hclosest := closest_roundedQuotient (num * twoTo (-q).toNat) hden
    rwa [Nat.cast_mul, cast_twoTo_neg (by omega), ← div_eq_mul_inv, div_right_comm] at hclosest

theorem short_iff (num : Nat) {den : Nat} (hden : 0 < den) (q : Int) :
    (if q ≥ 0 then num < twoTo 52 * (den * twoTo q.toNat) else num * twoTo (-q).toNat < twoTo 52 * den) ↔
      (num : ℚ) / den < 2 ^ 52 * 2 ^ q := by
  have hpos : (0 : ℚ) < den := Nat.cast_pos.2 hden
  rw [div_lt_iff₀ hpos]
  split
  · next hq =>
    rw [← Nat.cast_lt (α := ℚ), Nat.cast_mul, Nat.cast_mul, cast_twoTo_toNat hq, cast_twoTo, mul_assoc,
      mul_comm (2 ^ q) (den : ℚ)]
  · next hq =>
    rw [← Nat.cast_lt (α := ℚ), Nat.cast_mul, Nat.cast_mul, cast_twoTo_neg (by omega), cast_twoTo,
      ← div_eq_mul_inv, div_lt_iff₀ (two_zpow_pos q), mul_right_comm]

theorem log2_bounds {n : Nat} (hn : 0 < n) : (2 : ℚ) ^ (n.log2 : Int) ≤ n ∧ (n : ℚ) < 2 ^ ((n.log2 : Int) + 1) := by
  rw [← Nat.cast_succ, zpow_natCast, zpow_natCast]
  exact ⟨by exact_mod_cast Nat.log2_self_le hn.ne', by exact_mod_cast Nat.lt_log2_self⟩

/-- In the unit of the difference of their lengths, a quotient has one bit more or less than 52. -/
theorem div_bounds {num den : Nat} (hnum : 0 < num) (hden : 0 < den) :
    2 ^ 51 * 2 ^ ((num.log2 : Int) - den.log2 - 52) ≤ (num : ℚ) / den ∧
      (num : ℚ) / den < 2 ^ 53 * 2 ^ ((num.log2 : Int) - den.log2 - 52) := by
  have hpos : (0 : ℚ) < den := Nat.cast_pos.2 hden
  obtain ⟨hnumle, hnumlt⟩ := log2_bounds hnum
  obtain ⟨hdenle, hdenlt⟩ := log2_bounds hden
  have hadd : ∀ (n : Nat) (q p : Int), (2 : ℚ) ^ n * 2 ^ q * 2 ^ p = 2 ^ (n + q + p) := fun n q p => by
    rw [zpow_add₀ two_ne_zero, zpow_add₀ two_ne_zero, zpow_natCast]
  rw [le_div_iff₀ hpos, div_lt_iff₀ hpos]
  constructor
  · calc (2 : ℚ) ^ 51 * 2 ^ ((num.log2 : Int) - den.log2 - 52) * den
        ≤ 2 ^ 51 * 2 ^ ((num.log2 : Int) - den.log2 - 52) * 2 ^ ((den.log2 : Int) + 1) := by gcongr
      _ = 2 ^ (num.log2 : Int) := by rw [hadd]; congr 1; push_cast; ring
      _ ≤ num := hnumle
  · calc (num : ℚ) < 2 ^ ((num.log2 : Int) + 1) := hnumlt
      _ = 2 ^ 53 * 2 ^ ((num.log2 : Int) - den.log2 - 52) * 2 ^ (den.log2 : Int) := by
        rw [hadd]; congr 1; push_cast; ring
      _ ≤ 2 ^ 53 * 2 ^ ((num.log2 : Int) - den.log2 - 52) * den := by gcongr

/-- In its unit a quotient has 53 bits before the point, or fewer where the unit is the least one. -/
theorem unitExponent_spec {num den : Nat} (hnum : 0 < num) (hden : 0 < den) :
    leastExponent ≤ unitExponent num den ∧ (num : ℚ) / den < 2 ^ 53 * 2 ^ unitExponent num den ∧
      (unitExponent num den = leastExponent ∨ 2 ^ 52 * 2 ^ unitExponent num den ≤ (num : ℚ) / den) := by
  obtain ⟨hlower, hupper⟩ := div_bounds hnum hden
  -- The exponent for 53 bits, before the least one is put in its place.
  obtain ⟨q, hq, hlt, hge⟩ : ∃ q, unitExponent num den = max q leastExponent ∧
      (num : ℚ) / den < 2 ^ 53 * 2 ^ q ∧ 2 ^ 52 * 2 ^ q ≤ (num : ℚ) / den := by
    have hshort := short_iff num hden ((num.log2 : Int) - den.log2 - 52)
    unfold unitExponent
    generalize (num.log2 : Int) - den.log2 - 52 = q at hlower hupper hshort ⊢
    simp only [hshort]
    split
    · next h =>
      refine ⟨q - 1, rfl, ?_, ?_⟩ <;> rw [zpow_sub_one₀ two_ne_zero] <;> linarith
    · next h => exact ⟨q, rfl, hupper, not_lt.1 h⟩
  rw [hq]
  refine ⟨le_max_right _ _, ?_, ?_⟩
  · calc (num : ℚ) / den < 2 ^ 53 * 2 ^ q := hlt
      _ ≤ 2 ^ 53 * 2 ^ max q leastExponent := by gcongr; exacts [one_le_two, le_max_left _ _]
  · rcases le_total q leastExponent with h | h
    · exact .inl (max_eq_right h)
    · rw [max_eq_left h]
      exact .inr hge

/-! Rounding. -/

theorem fits_of_closest {m : Nat} {q : Int} {r : ℚ} (hm : Closest (fun i => i * 2 ^ q) r m)
    (hq : leastExponent ≤ q) (hlt : r < 2 ^ 53 * 2 ^ q) (hge : q = leastExponent ∨ 2 ^ 52 * 2 ^ q ≤ r) :
    Fits m q := by
  have hmono : ∀ {i j : Nat}, i < j → (i : ℚ) * 2 ^ q < j * 2 ^ q := fun h =>
    mul_lt_mul_of_pos_right (Nat.cast_lt.2 h) (two_zpow_pos q)
  refine ⟨hq, ?_, hge.imp_right fun hr => ?_⟩
  · by_contra hlarge
    have hlarge := hmono (Nat.lt_of_not_le hlarge)
    have hmiddle := (upper_nearer_iff hlarge).1 (hm.le (twoTo 53))
    rw [cast_twoTo] at hlarge hmiddle
    linarith
  · by_contra hsmall
    have hsmall := hmono (Nat.lt_of_not_le hsmall)
    have hmiddle := (lower_nearer_iff hsmall).1 (hm.le (twoTo 52))
    rw [cast_twoTo] at hsmall hmiddle
    linarith

/-- The multiple of the unit that is nearest to a number is the nearest double too. -/
theorem closest_point {m : Nat} {q : Int} {r : ℚ} (hm : Closest (fun i => i * 2 ^ q) r m)
    (hq : leastExponent ≤ q) (hlt : r < 2 ^ 53 * 2 ^ q) (hge : q = leastExponent ∨ 2 ^ 52 * 2 ^ q ≤ r) :
    Closest point r (bitsFor m q) := by
  have hpoint := point_bitsFor (fits_of_closest hm hq hlt hge)
  have hcloser : ∀ j, leastExponent < q → point j < 2 ^ 52 * 2 ^ q → |m * 2 ^ q - r| < |point j - r| := by
    intro j hleast hj
    have hr := hge.resolve_left hleast.ne'
    have hnearest := hm.le (twoTo 52)
    rw [cast_twoTo] at hnearest
    rw [abs_of_nonpos (by linarith : 2 ^ 52 * 2 ^ q - r ≤ 0)] at hnearest
    rw [abs_of_neg (by linarith : point j - r < 0)]
    linarith
  constructor
  · intro j
    rw [hpoint]
    obtain ⟨i, hi⟩ | ⟨hleast, hj⟩ := point_cases j q
    · rw [hi]
      exact hm.le i
    · exact (hcloser j hleast hj).le
  · intro j hne heq
    rw [hpoint] at heq
    obtain ⟨i, hi⟩ | ⟨hleast, hj⟩ := point_cases j q
    · have hother : i ≠ m := by
        rintro rfl
        exact hne (point_strictMono.injective (hi.trans hpoint.symm))
      rw [hi] at heq
      rw [bitsFor_mod_two]
      exact hm.even i hother heq
    · exact absurd heq (hcloser j hleast hj).ne'

theorem toNat_bits_ofRatio {num den : Nat} (hnum : 0 < num) (hden : 0 < den) :
    (ofRatio false num den).bits.toNat =
      min (bitsFor (scaled num den (unitExponent num den)) (unitExponent num den)) infinityBits := by
  have hcond : (decide (num = 0) || decide (den = 0)) = false := by simp [hnum.ne', hden.ne']
  have hlt : ∀ k, min k infinityBits < UInt64.size := fun k =>
    Nat.lt_of_le_of_lt (Nat.min_le_right k infinityBits) (by decide)
  rw [ofRatio, hcond, if_neg Bool.false_ne_true]
  simp only [signBit, Bool.false_eq_true, if_false, Nat.zero_add]
  exact UInt64.toNat_ofNat_of_lt' (hlt _)

/-- The number that a double stands for. Infinity stands for `2 ^ 1024`, the double that would come behind the
largest: rounding treats it as that. -/
def toRat (x : Binary64) : ℚ := (if x.isNegative then -1 else 1) * (x.parts.1 * 2 ^ x.parts.2)

/-- That a double without a sign is the one nearest to a number, and of two equally near ones the one whose bits are
even. -/
structure IsNearest (x : Binary64) (r : ℚ) : Prop where
  isNegative : x.isNegative = false
  isNaN : x.isNaN = false
  le : ∀ y : Binary64, y.isNaN = false → |x.toRat - r| ≤ |y.toRat - r|
  even : ∀ y : Binary64, y.isNaN = false → y ≠ x → |y.toRat - r| = |x.toRat - r| → x.bits.toNat % 2 = 0

theorem toRat_eq (x : Binary64) : x.toRat = (if x.isNegative then -1 else 1) * point x.magnitude := by
  rw [toRat, parts_eq, point]

theorem isNaN_eq_false_iff {x : Binary64} : x.isNaN = false ↔ x.magnitude ≤ infinityBits := by
  simp [isNaN]

theorem isNegative_of_lt {x : Binary64} (h : x.bits.toNat < twoTo 63) : x.isNegative = false := by
  simpa [isNegative] using h

theorem magnitude_of_not_isNegative {x : Binary64} (h : x.isNegative = false) : x.magnitude = x.bits.toNat := by
  rw [isNegative, decide_eq_false_iff_not, ge_iff_le, Nat.not_le] at h
  exact Nat.mod_eq_of_lt h

theorem toRat_of_not_isNegative {x : Binary64} (h : x.isNegative = false) : x.toRat = point x.bits.toNat := by
  rw [toRat_eq, h, magnitude_of_not_isNegative h, if_neg Bool.false_ne_true, one_mul]

theorem isNearest_of_closest {x : Binary64} {r : ℚ} (hr : 0 ≤ r) (hx : x.bits.toNat ≤ infinityBits)
    (h : ∀ j ≤ infinityBits, |point x.bits.toNat - r| ≤ |point j - r| ∧
      (j ≠ x.bits.toNat → |point j - r| = |point x.bits.toNat - r| → x.bits.toNat % 2 = 0)) :
    x.IsNearest r := by
  have hsign : x.isNegative = false := isNegative_of_lt (Nat.lt_of_le_of_lt hx (by decide))
  have hmagnitude := magnitude_of_not_isNegative hsign
  have hzero := h 0 (Nat.zero_le _)
  rw [point_zero, zero_sub, abs_neg, abs_of_nonneg hr] at hzero
  have hminus : ∀ y : Binary64, y.isNegative = true → |y.toRat - r| = point y.magnitude + r := by
    intro y hy
    rw [toRat_eq, hy, if_pos rfl, abs_of_nonpos (by linarith [point_nonneg y.magnitude])]
    ring
  refine ⟨hsign, isNaN_eq_false_iff.2 (hmagnitude ▸ hx), fun y hy => ?_, fun y hy hne heq => ?_⟩
  · rw [toRat_of_not_isNegative hsign]
    cases hsigny : y.isNegative with
    | false =>
      rw [isNaN_eq_false_iff, magnitude_of_not_isNegative hsigny] at hy
      rw [toRat_of_not_isNegative hsigny]
      exact (h _ hy).1
    | true =>
      rw [hminus y hsigny]
      linarith [hzero.1, point_nonneg y.magnitude]
  · rw [toRat_of_not_isNegative hsign] at heq
    cases hsigny : y.isNegative with
    | false =>
      rw [isNaN_eq_false_iff, magnitude_of_not_isNegative hsigny] at hy
      rw [toRat_of_not_isNegative hsigny] at heq
      exact (h _ hy).2 (fun hbits => hne (congrArg mk (UInt64.toNat_inj.1 hbits))) heq
    | true =>
      rw [hminus y hsigny] at heq
      rcases eq_or_ne x.bits.toNat 0 with hbits | hbits
      · rw [hbits]
      · exact hzero.2 hbits.symm (by linarith [hzero.1, point_nonneg y.magnitude])

/-- A quotient is rounded to the nearest double. -/
theorem isNearest_ofRatio (num : Nat) {den : Nat} (hden : 0 < den) :
    (ofRatio false num den).IsNearest (num / den) := by
  rcases Nat.eq_zero_or_pos num with rfl | hnum
  · have hbits : (ofRatio false 0 den).bits.toNat = 0 := rfl
    refine isNearest_of_closest (by positivity) (hbits ▸ Nat.zero_le _) fun j _ => ?_
    rw [hbits, point_zero, Nat.cast_zero, zero_div, sub_zero, abs_zero]
    exact ⟨abs_nonneg _, fun _ _ => rfl⟩
  obtain ⟨hq, hlt, hge⟩ := unitExponent_spec hnum hden
  have hclosest := closest_point (closest_scaled num hden _) hq hlt hge
  have hbits := toNat_bits_ofRatio hnum hden
  refine isNearest_of_closest (by positivity) (hbits ▸ Nat.min_le_right _ _) fun j hj => ?_
  rw [hbits]
  exact hclosest.min point_strictMono (by decide) hj

/-! Where doubles end. -/

/-- No double of given bits without a sign is nearer than the nearest one, and it is even if one is as near. -/
theorem IsNearest.closest {x : Binary64} {r : ℚ} (h : x.IsNearest r) {k : Nat} (hk : k ≤ infinityBits) :
    |point x.bits.toNat - r| ≤ |point k - r| ∧
      (k ≠ x.bits.toNat → |point k - r| = |point x.bits.toNat - r| → x.bits.toNat % 2 = 0) := by
  have hbits : (UInt64.ofNat k).toNat = k := UInt64.toNat_ofNat_of_lt' (Nat.lt_of_le_of_lt hk (by decide))
  have hsign : (⟨.ofNat k⟩ : Binary64).isNegative = false :=
    isNegative_of_lt (Nat.lt_of_le_of_lt (hbits.trans_le hk) (by decide))
  have hnumber : (⟨.ofNat k⟩ : Binary64).isNaN = false := by
    rw [isNaN_eq_false_iff, magnitude_of_not_isNegative hsign]
    exact hbits.trans_le hk
  have hvalue := toRat_of_not_isNegative hsign
  rw [hbits] at hvalue
  rw [← toRat_of_not_isNegative h.isNegative, ← hvalue]
  refine ⟨h.le _ hnumber, fun hne => h.even _ hnumber ?_⟩
  rintro rfl
  exact hne hbits.symm

/-- The nearest double is infinite from half a unit above the largest finite one on. -/
theorem IsNearest.isInfinite_iff {x : Binary64} {r : ℚ} (h : x.IsNearest r) :
    x.isInfinite = true ↔ 2 ^ 1024 - 2 ^ 970 ≤ r := by
  have hmagnitude := magnitude_of_not_isNegative h.isNegative
  have hrange := isNaN_eq_false_iff.1 h.isNaN
  have hlast : point (infinityBits - 1) < point infinityBits := point_strictMono (by decide)
  have hmiddle : point (infinityBits - 1) + point infinityBits = 2 * (2 ^ 1024 - 2 ^ 970) := by
    rw [point_largest, point_infinityBits, pow_succ' _ 970]
    generalize (2 : ℚ) ^ 1024 = limit, (2 : ℚ) ^ 970 = half
    ring
  rw [isInfinite, decide_eq_true_iff, hmagnitude]
  rw [hmagnitude] at hrange
  generalize (2 : ℚ) ^ 1024 - 2 ^ 970 = middle at hmiddle ⊢
  constructor
  · intro hinfinite
    have hnearest := (h.closest (Nat.sub_le infinityBits 1)).1
    rw [hinfinite, upper_nearer_iff hlast] at hnearest
    linarith
  · intro hr
    by_contra hfinite
    have hle : point x.bits.toNat ≤ point (infinityBits - 1) :=
      point_strictMono.monotone (Nat.le_sub_one_of_lt (Nat.lt_of_le_of_ne hrange hfinite))
    obtain ⟨hend, heven⟩ := h.closest (Nat.le_refl infinityBits)
    have hbefore := (lower_nearer_iff (hle.trans_lt hlast)).1 hend
    -- Only in the middle is infinity not nearer than the largest double, and that one is odd.
    have hlargest : x.bits.toNat = infinityBits - 1 := point_strictMono.injective (by linarith)
    have htie : |point infinityBits - r| ≤ |point x.bits.toNat - r| := by
      rw [hlargest, upper_nearer_iff hlast]
      linarith
    have hodd : x.bits.toNat % 2 = 1 := by rw [hlargest]; decide
    have := heven (Ne.symm hfinite) (le_antisymm htie hend)
    omega

end Binary64

end PrototypeScan
