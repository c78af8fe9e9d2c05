import MediaCommand.Proofs.Number.Comparison
import Mathlib.Algebra.Order.Group.Abs
import Mathlib.Algebra.Order.Round

/-!
# The nearest number of a grid

Rounding to a grid takes a number to one that nothing on the grid is nearer to (`IsNearest`). That
alone makes it keep the order (`IsNearest.mono`) and stop at the numbers of the grid
(`IsNearest.eq_of_mem`), wherever ties go. The multiples of a step are a grid, on which a number
moves by half a step at most (`IsNearest.abs_sub_le`); decimals of fixed places are rounded to such a
grid (`Scaled.isNearest_rounded`).
-/

namespace MediaCommand

/-- `r` is on the grid, and nothing on the grid is nearer to `q`. -/
structure IsNearest (grid : Set Rat) (q r : Rat) : Prop where
  mem : r ∈ grid
  least : ∀ s ∈ grid, |q - r| ≤ |q - s|

namespace IsNearest

variable {grid other : Set Rat} {p q r s : Rat}

theorem of_mem (mem : q ∈ grid) : IsNearest grid q q := by
  refine ⟨mem, fun s _ => ?_⟩
  rw [sub_self, abs_zero]
  exact abs_nonneg _

/-- A number on the grid is rounded to itself. -/
theorem eq_of_mem (nearest : IsNearest grid q r) (mem : q ∈ grid) : r = q := by
  have none := nearest.least q mem
  rw [sub_self, abs_zero, abs_nonpos_iff, sub_eq_zero] at none
  exact none.symm

theorem of_subset (sub : other ⊆ grid) (mem : r ∈ other) (nearest : IsNearest grid q r) :
    IsNearest other q r :=
  ⟨mem, fun s found => nearest.least s (sub found)⟩

/-- Nothing is on the other side of the middle between its nearest number and a greater one. -/
theorem le_middle (nearest : IsNearest grid q r) (mem : s ∈ grid) (lt : r < s) : 2 * q ≤ r + s := by
  by_contra beyond
  have near := nearest.least s mem
  rw [abs_of_pos (by linarith)] at near
  rcases abs_cases (q - s) with ⟨same, -⟩ | ⟨same, -⟩ <;> linarith

theorem middle_le (nearest : IsNearest grid q r) (mem : s ∈ grid) (lt : s < r) : r + s ≤ 2 * q := by
  by_contra beyond
  have near := nearest.least s mem
  rw [abs_of_neg (by linarith)] at near
  rcases abs_cases (q - s) with ⟨same, -⟩ | ⟨same, -⟩ <;> linarith

/-- Rounding keeps the order, wherever ties go. -/
theorem mono (first : IsNearest grid q r) (second : IsNearest grid p s) (lt : q < p) : r ≤ s := by
  by_contra swapped
  have above := first.middle_le second.mem (not_le.1 swapped)
  have below := second.le_middle first.mem (not_le.1 swapped)
  linarith

theorem le_of_le (nearest : IsNearest grid q r) (mem : s ∈ grid) (le : q ≤ s) : r ≤ s := by
  rcases le.eq_or_lt with rfl | lt
  · exact (nearest.eq_of_mem mem).le
  · exact nearest.mono (of_mem mem) lt

theorem le_of_ge (nearest : IsNearest grid q r) (mem : s ∈ grid) (le : s ≤ q) : s ≤ r := by
  rcases le.eq_or_lt with rfl | lt
  · exact (nearest.eq_of_mem mem).ge
  · exact (of_mem mem).mono nearest lt

end IsNearest

/-- The number of a sign and a magnitude. -/
def withSign (negative : Bool) (magnitude : Rat) : Rat :=
  if negative then -magnitude else magnitude

theorem abs_withSign_sub (negative : Bool) (p q : Rat) :
    |withSign negative p - withSign negative q| = |p - q| := by
  cases negative with
  | false => rfl
  | true =>
    rw [withSign, withSign, if_pos rfl, if_pos rfl, neg_sub_neg, abs_sub_comm]

theorem abs_withSign (negative : Bool) (q : Rat) : |withSign negative q| = |q| := by
  cases negative with
  | false => rfl
  | true => exact abs_neg q

theorem withSign_natCast (negative : Bool) (m : Nat) : ∃ n : Int, withSign negative m = n := by
  cases negative with
  | false => exact ⟨m, by simp [withSign]⟩
  | true => exact ⟨-m, by simp [withSign]⟩

/-- A sign in front of the magnitudes of the others brings nothing nearer. -/
theorem le_abs_withSign_sub (negative : Bool) {p : Rat} (nonneg : 0 ≤ p) (q : Rat) :
    |p - abs q| ≤ |withSign negative p - q| := by
  have gap := abs_abs_sub_abs_le (withSign negative p) q
  rwa [abs_withSign, abs_of_nonneg nonneg] at gap

/-! ## Multiples of a step -/

def multiplesOf (step : Rat) : Set Rat := {q | ∃ n : Int, q = n * step}

variable {step : Rat}

/-- What is at most half a step away is nearest. -/
theorem isNearest_multiple (pos : 0 < step) {q : Rat} {n : Int} (near : |q - n * step| ≤ step / 2) :
    IsNearest (multiplesOf step) q (n * step) := by
  refine ⟨⟨n, rfl⟩, ?_⟩
  rintro _ ⟨m, rfl⟩
  rcases eq_or_ne m n with rfl | other
  · exact le_rfl
  · have apart : (1 : Rat) ≤ |(m : Rat) - n| := by
      have : 1 ≤ |m - n| := Int.one_le_abs (sub_ne_zero.2 other)
      exact_mod_cast this
    have gap : step ≤ |m * step - n * step| := by
      rw [← sub_mul, abs_mul, abs_of_pos pos]
      nlinarith
    have := abs_sub_le (m * step) q (n * step)
    rw [abs_sub_comm (m * step) q] at this
    linarith

/-- Half a unit, in the units of a step. -/
theorem abs_sub_mul_le (pos : 0 < step) {q r : Rat} (near : |q / step - r| ≤ 1 / 2) :
    |q - r * step| ≤ step / 2 := by
  have scaled := mul_le_mul_of_nonneg_right near pos.le
  rw [← abs_of_pos pos, ← abs_mul, sub_mul, abs_of_pos pos, div_mul_cancel₀ _ pos.ne'] at scaled
  linarith

/-- Rounding to multiples moves a number by half a step at most. -/
theorem IsNearest.abs_sub_le (pos : 0 < step) {q r : Rat}
    (nearest : IsNearest (multiplesOf step) q r) : |q - r| ≤ step / 2 :=
  (nearest.least _ ⟨round (q / step), rfl⟩).trans (abs_sub_mul_le pos (abs_sub_round _))

/-- Multiples less than a step apart are equal. -/
theorem eq_of_multiples {p q : Rat} (first : p ∈ multiplesOf step) (second : q ∈ multiplesOf step)
    (near : |p - q| < step) : p = q := by
  obtain ⟨m, rfl⟩ := first
  obtain ⟨n, rfl⟩ := second
  have pos : 0 < step := (abs_nonneg _).trans_lt near
  rw [← sub_mul, abs_mul, abs_of_pos pos] at near
  have less : |(m : Rat) - n| < 1 := lt_of_mul_lt_mul_right (by rwa [one_mul]) pos.le
  have same : |m - n| < 1 := by exact_mod_cast less
  rw [Int.abs_lt_one_iff, sub_eq_zero] at same
  rw [same]

theorem withSign_mem_multiplesOf (negative : Bool) (n : Nat) :
    withSign negative (n * step) ∈ multiplesOf step := by
  cases negative with
  | false => exact ⟨n, by simp [withSign]⟩
  | true => exact ⟨-n, by simp [withSign]⟩

/-- The same on both sides of zero. -/
theorem isNearest_withSign (negative : Bool) (pos : 0 < step) {q : Rat} {n : Nat}
    (near : |q - n * step| ≤ step / 2) :
    IsNearest (multiplesOf step) (withSign negative q) (withSign negative (n * step)) := by
  obtain ⟨m, same⟩ := @withSign_mem_multiplesOf step negative n
  rw [same]
  refine isNearest_multiple pos ?_
  rwa [← same, abs_withSign_sub]

/-! ## Rounded quotients -/

/-- A rounded quotient is at most a half away. -/
theorem abs_sub_roundDiv_le (num : Nat) {den : Nat} (tie : Tie) (pos : 0 < den) :
    |(num / den : Rat) - roundDiv num den tie| ≤ 1 / 2 := by
  obtain ⟨least, most⟩ := roundDiv_bounds num den tie pos
  have pos : (0 : Rat) < den := by exact_mod_cast pos
  have least : 2 * (num : Rat) ≤ (2 * roundDiv num den tie + 1) * den := by exact_mod_cast least
  have most : 2 * (roundDiv num den tie * den : Rat) ≤ 2 * num + den := by exact_mod_cast most
  generalize (roundDiv num den tie : Rat) = r at *
  rw [abs_le]
  constructor
  · rw [le_sub_iff_add_le, le_div_iff₀ pos]
    linarith
  · rw [sub_le_iff_le_add, div_le_iff₀ pos]
    linarith

theorem roundDiv_mul_right (num den : Nat) (tie : Tie) {k : Nat} (pos : 0 < k) :
    roundDiv (num * k) (den * k) tie = roundDiv num den tie := by
  have quotient : num * k / (den * k) = num / den := Nat.mul_div_mul_right _ _ pos
  have rest : num * k % (den * k) = num % den * k := Nat.mul_mod_mul_right _ _ _
  have below : 2 * (num % den * k) < den * k ↔ 2 * (num % den) < den := by
    rw [← Nat.mul_assoc, Nat.mul_lt_mul_right pos]
  have above : den * k < 2 * (num % den * k) ↔ den < 2 * (num % den) := by
    rw [← Nat.mul_assoc, Nat.mul_lt_mul_right pos]
  simp only [roundDiv, quotient, rest, below, above]

/-- Only the quotient counts. -/
theorem roundDiv_congr {num den num' den' : Nat} (tie : Tie) (pos : 0 < den) (pos' : 0 < den')
    (same : num * den' = num' * den) : roundDiv num den tie = roundDiv num' den' tie := by
  rw [← roundDiv_mul_right num den tie pos', ← roundDiv_mul_right num' den' tie pos, same,
    Nat.mul_comm den den']

namespace Scaled

theorem toRat_eq_withSign (x : Scaled) :
    x.toRat = withSign x.negative (x.coefficient * 10 ^ x.exponent) := by
  rw [← abs_toRat]
  exact x.toRat_eq_abs

/-- A decimal without places is an integer. -/
theorem int_of_exponent {x : Scaled} (whole : 0 ≤ x.exponent) : ∃ n : Int, x.toRat = n := by
  obtain ⟨up, same⟩ := Int.eq_ofNat_of_zero_le whole
  obtain ⟨n, value⟩ := withSign_natCast x.negative (x.coefficient * 10 ^ up)
  refine ⟨n, ?_⟩
  rw [x.toRat_eq_withSign, same, zpow_natCast, ← value]
  push_cast
  rfl

/-- The decimal that a number is rounded to at a fixed place. -/
def rounded (places : Nat) (tie : Tie) (x : Scaled) : Scaled :=
  ⟨x.negative, x.units places tie, -places⟩

/-- The quotient whose rounding is the units of a number. -/
theorem units_quotient (x : Scaled) (places : Nat) :
    ((x.coefficient * 10 ^ (x.exponent + places).toNat : Nat) : Rat) /
      (10 ^ (-(x.exponent + places)).toNat : Nat) = |x.toRat| / 10 ^ (-places : Int) := by
  rw [abs_toRat]
  push_cast
  rw [mul_div_assoc, ← zpow_eq_div, zpow_add₀ (by norm_num), zpow_neg, div_inv_eq_mul, mul_assoc]

/-- A number is rounded to a nearest one with that many places. -/
theorem isNearest_rounded (places : Nat) (tie : Tie) (x : Scaled) :
    IsNearest (multiplesOf (10 ^ (-places : Int))) x.toRat (x.rounded places tie).toRat := by
  have unit : 0 < 10 ^ (-(x.exponent + places)).toNat := Nat.pow_pos (by decide)
  have near := abs_sub_roundDiv_le (x.coefficient * 10 ^ (x.exponent + places).toNat) tie unit
  rw [← units_eq_roundDiv, units_quotient, abs_toRat] at near
  have pos : (0 : Rat) < 10 ^ (-places : Int) := by positivity
  rw [toRat_eq_withSign, toRat_eq_withSign]
  exact isNearest_withSign x.negative pos (abs_sub_mul_le pos near)

/-- A number is rounded to an even number of units or more from half a unit below it on. -/
theorem even_le_units_iff (x : Scaled) (places : Nat) {top : Nat} (even : top % 2 = 0) :
    top ≤ x.units places .toEven ↔ (top - 1 / 2) * 10 ^ (-places : Int) ≤ |x.toRat| := by
  have quotient := x.units_quotient places
  have pos : 0 < 10 ^ (-(x.exponent + places)).toNat := Nat.pow_pos (by decide)
  rw [units_eq_roundDiv, even_le_roundDiv_iff pos even, ← le_div_iff₀ (by positivity), ← quotient,
    le_div_iff₀ (by exact_mod_cast pos), ← @Nat.cast_le Rat]
  push_cast
  constructor <;> intro le <;> linarith

end Scaled

end MediaCommand
