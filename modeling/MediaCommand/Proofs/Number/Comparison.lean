import MediaCommand.Number.Double
import MediaCommand.Proofs.Number.Range
import Mathlib.Order.Compare

/-!
# The order of exact numbers

Comparing decimals of any exponents is comparing their rational values (`Scaled.compare_eq`), and a
double is compared by its exact decimal expansion (`FiniteDouble.toRat_toScaled`).
-/

namespace MediaCommand

namespace Scaled

theorem toRat_ofInt (n : Int) : (ofInt n).toRat = n := by
  rw [toRat_eq_abs, abs_toRat]
  have size : ((n.natAbs : Nat) : Rat) = |(n : Rat)| := by
    rw [Nat.cast_natAbs, Int.cast_abs]
  rcases lt_or_ge n 0 with negative | nonneg
  · have below : (n : Rat) ≤ 0 := by exact_mod_cast negative.le
    simp [ofInt, negative, size, abs_of_nonpos below]
  · have above : (0 : Rat) ≤ n := by exact_mod_cast nonneg
    simp [ofInt, not_lt.2 nonneg, size, abs_of_nonneg above]

/-- A number other than zero lies between its leading power of ten and the next one. -/
theorem leadingPower_bounds {x : Scaled} (nonzero : x.coefficient ≠ 0) :
    (10 : Rat) ^ x.leadingPower ≤ |x.toRat| ∧ |x.toRat| < 10 ^ (x.leadingPower + 1) := by
  have pos : 0 < digitCount x.coefficient := Nat.length_toDigits_pos
  have low : ((10 ^ (digitCount x.coefficient - 1) : Nat) : Rat) ≤ x.coefficient :=
    Nat.cast_le.2 (ten_pow_le nonzero)
  have high : (x.coefficient : Rat) < (10 ^ digitCount x.coefficient : Nat) :=
    Nat.cast_lt.2 ((digitCount_le_iff pos).1 le_rfl)
  have unit : (0 : Rat) < 10 ^ x.exponent := by positivity
  have first : x.leadingPower = ((digitCount x.coefficient - 1 : Nat) : Int) + x.exponent := by
    rw [leadingPower]
    omega
  have next : x.leadingPower + 1 = (digitCount x.coefficient : Int) + x.exponent := by
    rw [leadingPower]
    omega
  rw [abs_toRat, next, first, zpow_add₀ (by norm_num), zpow_add₀ (by norm_num), zpow_natCast,
    zpow_natCast]
  push_cast at low high
  exact ⟨mul_le_mul_of_nonneg_right low unit.le, mul_lt_mul_of_pos_right high unit⟩

theorem abs_toRat_eq_zero (x : Scaled) : |x.toRat| = 0 ↔ x.coefficient = 0 := by
  have unit : (10 : Rat) ^ x.exponent ≠ 0 := by positivity
  rw [abs_toRat, mul_eq_zero, or_iff_left unit, Nat.cast_eq_zero]

/-- In units of the smaller exponent two magnitudes are integers. -/
theorem compare_aligned (x y : Scaled) :
    Ord.compare (x.coefficient * 10 ^ (x.exponent - y.exponent).toNat)
      (y.coefficient * 10 ^ (y.exponent - x.exponent).toNat) = cmp |x.toRat| |y.toRat| := by
  have align (a b : Int) (n : Nat) :
      ((n * 10 ^ (a - b).toNat : Nat) : Rat) * 10 ^ min a b = n * 10 ^ a := by
    have whole : ((a - b).toNat : Int) + min a b = a := by omega
    rw [Nat.cast_mul, mul_assoc, Nat.cast_pow, Nat.cast_ofNat, ← zpow_natCast,
      ← zpow_add₀ (by norm_num), whole]
  have unit : (0 : Rat) < 10 ^ min x.exponent y.exponent := by positivity
  rw [abs_toRat, abs_toRat, ← align x.exponent y.exponent, ← align y.exponent x.exponent,
    min_comm y.exponent, cmp_mul_pos_right unit, ← cmp_eq_compare]
  exact (Nat.strictMono_cast.cmp_map_eq _ _).symm

/-- Magnitudes are ordered as their values. -/
theorem compareMagnitude_eq (x y : Scaled) : x.compareMagnitude y = cmp |x.toRat| |y.toRat| := by
  have positive (z : Scaled) (nonzero : z.coefficient ≠ 0) : 0 < |z.toRat| :=
    lt_of_le_of_ne (abs_nonneg _) fun none => nonzero (z.abs_toRat_eq_zero.1 none.symm)
  unfold compareMagnitude
  by_cases zero : x.coefficient = 0 ∨ y.coefficient = 0
  · rw [if_pos zero, ← cmp_eq_compare]
    by_cases left : x.coefficient = 0
    · by_cases right : y.coefficient = 0
      · rw [x.abs_toRat_eq_zero.2 left, y.abs_toRat_eq_zero.2 right, left, right, cmp_self_eq_eq,
          cmp_self_eq_eq]
      · rw [x.abs_toRat_eq_zero.2 left, left, (cmp_eq_lt_iff _ _).2 (Nat.pos_of_ne_zero right),
          (cmp_eq_lt_iff _ _).2 (positive y right)]
    · have right : y.coefficient = 0 := zero.resolve_left left
      rw [y.abs_toRat_eq_zero.2 right, right, (cmp_eq_gt_iff _ _).2 (Nat.pos_of_ne_zero left),
        (cmp_eq_gt_iff _ _).2 (positive x left)]
  · obtain ⟨left, right⟩ := not_or.1 zero
    obtain ⟨lowLeft, highLeft⟩ := leadingPower_bounds left
    obtain ⟨lowRight, highRight⟩ := leadingPower_bounds right
    have grow {a b : Int} (less : a < b) : (10 : Rat) ^ (a + 1) ≤ 10 ^ b :=
      zpow_le_zpow_right₀ (by norm_num) (by omega)
    rw [if_neg zero]
    rcases lt_trichotomy x.leadingPower y.leadingPower with less | same | greater
    · rw [if_pos less.ne, ← cmp_eq_compare, (cmp_eq_lt_iff _ _).2 less, (cmp_eq_lt_iff _ _).2]
      exact highLeft.trans_le ((grow less).trans lowRight)
    · rw [if_neg (not_not.2 same)]
      exact compare_aligned x y
    · rw [if_pos greater.ne', ← cmp_eq_compare, (cmp_eq_gt_iff _ _).2 greater,
        (cmp_eq_gt_iff _ _).2]
      exact highRight.trans_le ((grow greater).trans lowLeft)

/-- Comparing decimals is comparing their values. -/
theorem compare_eq (x y : Scaled) : x.compare y = cmp x.toRat y.toRat := by
  have leftSize := abs_nonneg x.toRat
  have rightSize := abs_nonneg y.toRat
  have zero := and_congr x.abs_toRat_eq_zero y.abs_toRat_eq_zero
  rw [compare, x.toRat_eq_abs, y.toRat_eq_abs, compareMagnitude_eq x y, compareMagnitude_eq y x]
  by_cases zeros : x.coefficient = 0 ∧ y.coefficient = 0
  · obtain ⟨left, right⟩ := zero.2 zeros
    rw [if_pos zeros, left, right, neg_zero, ite_self, ite_self, cmp_self_eq_eq]
  · rw [if_neg zeros]
    rw [← zero] at zeros
    generalize |x.toRat| = a at *
    generalize |y.toRat| = b at *
    -- Only numbers of different signs need that one of them is not zero.
    have some : 0 < a + b := by
      rcases lt_or_eq_of_le (add_nonneg leftSize rightSize) with pos | none
      · exact pos
      · exact absurd ⟨by linarith, by linarith⟩ zeros
    cases x.negative <;> cases y.negative
    · rfl
    · exact ((cmp_eq_gt_iff _ _).2 (show -b < a by linarith)).symm
    · exact ((cmp_eq_lt_iff _ _).2 (show -a < b by linarith)).symm
    · have turned : StrictAnti fun q : Rat => -q := fun _ _ => neg_lt_neg
      exact (turned.cmp_map_eq a b).symm

end Scaled

namespace FiniteDouble

theorem negative_toScaled (x : FiniteDouble) : x.toScaled.negative = x.negative := by
  unfold toScaled
  split <;> rfl

/-- The exact expansion has the value of the double. -/
theorem toRat_toScaled (x : FiniteDouble) : x.toScaled.toRat = x.toRat := by
  unfold toScaled
  split
  · next up =>
    have none : (-x.exponent).toNat = 0 := by omega
    simp [Scaled.toRat, toRat, none]
  · next down =>
    have none : x.exponent.toNat = 0 := by omega
    have tens (k : Nat) : (10 : Rat) ^ k = 5 ^ k * 2 ^ k := by rw [← mul_pow]; norm_num
    have fives : (5 : Rat) ^ (-x.exponent).toNat ≠ 0 := by positivity
    simp only [Scaled.toRat, toRat, none, pow_zero, mul_one, Rat.mkRat_eq_div]
    push_cast
    rw [tens, mul_comm (x.significand : Rat), mul_div_mul_left _ _ fives]

end FiniteDouble

end MediaCommand
