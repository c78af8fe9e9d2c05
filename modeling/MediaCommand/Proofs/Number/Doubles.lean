import MediaCommand.Proofs.Number.Nearest

/-!
# Rounding to doubles

The finite doubles are a grid. Reading a decimal and every operation on doubles go to a nearest one
(`Double.isNearest_ofScaled`, `Double.isNearest_ofRat`), which is not more than half a step of the
result away (`Double.abs_sub_ofScaled_le`, `Double.abs_sub_ofRat_le`). A number that is a double
already is kept (`Double.ofRat_of_mem`), and only numbers beyond the greatest double may have none
(`Double.ofRat_isFinite`).
-/

namespace MediaCommand

/-- The values of the finite doubles. -/
def doubles : Set Rat := Set.range FiniteDouble.toRat

theorem FiniteDouble.mem_doubles (x : FiniteDouble) : x.toRat ∈ doubles := ⟨x, rfl⟩

/-! ## The values of doubles -/

namespace FiniteDouble

/-- The distance from a double to the next one away from zero. -/
def step (x : FiniteDouble) : Rat := 2 ^ x.exponent

theorem step_pos (x : FiniteDouble) : 0 < x.step := zpow_pos (by norm_num) _

theorem toRat_eq_withSign (x : FiniteDouble) :
    x.toRat = withSign x.negative (x.significand * x.step) := by
  rw [step, zpow_eq_div, ← mul_div_assoc, toRat, withSign, Rat.mkRat_eq_div]
  push_cast
  rfl

theorem abs_toRat (x : FiniteDouble) : |x.toRat| = x.significand * x.step := by
  rw [toRat_eq_withSign, abs_withSign]
  exact abs_of_nonneg (mul_nonneg (Nat.cast_nonneg _) x.step_pos.le)

theorem negative_of_neg {x : FiniteDouble} (below : x.toRat < 0) : x.negative = true := by
  by_contra positive
  rw [toRat_eq_withSign, withSign, if_neg positive] at below
  exact absurd below (not_lt.2 (mul_nonneg (Nat.cast_nonneg _) x.step_pos.le))

theorem negative_of_pos {x : FiniteDouble} (above : 0 < x.toRat) : x.negative = false := by
  by_contra negative
  rw [Bool.not_eq_false] at negative
  rw [toRat_eq_withSign, withSign, if_pos negative, neg_pos] at above
  exact absurd above (not_lt.2 (mul_nonneg (Nat.cast_nonneg _) x.step_pos.le))

/-- Fewer than 53 bits at any place of the range are a double. -/
theorem exists_toRat (negative : Bool) {m : Nat} {e : Int} (few : m < 2 ^ 53) (least : -1074 ≤ e)
    (most : e ≤ 971) : ∃ x : FiniteDouble, x.toRat = withSign negative (m * 2 ^ e) := by
  rcases Nat.eq_zero_or_pos m with rfl | pos
  · refine ⟨zero negative, ?_⟩
    rw [toRat_eq_withSign]
    simp [zero]
  -- Shifted up to 53 bits, unless the least place is reached before.
  obtain ⟨low, high⟩ := (Nat.log2_eq_iff pos.ne').1 rfl
  have short : m.log2 < 53 := (Nat.log2_lt pos.ne').2 few
  obtain ⟨k, shift⟩ : ∃ k : Nat, (k : Int) = min (52 - m.log2 : Int) (e + 1074) :=
    ⟨(min (52 - m.log2 : Int) (e + 1074)).toNat, by omega⟩
  have fits : m * 2 ^ k < 2 ^ 53 := by
    calc m * 2 ^ k < 2 ^ (m.log2 + 1) * 2 ^ k := Nat.mul_lt_mul_of_pos_right high (Nat.two_pow_pos k)
      _ = 2 ^ (m.log2 + 1 + k) := (Nat.pow_add ..).symm
      _ ≤ 2 ^ 53 := Nat.pow_le_pow_right (by decide) (by omega)
  have full : 2 ^ 52 ≤ m * 2 ^ k ∨ e - k = -1074 := by
    by_cases last : e - k = -1074
    · exact .inr last
    · have all : k = 52 - m.log2 := by omega
      left
      calc 2 ^ 52 = 2 ^ (m.log2 + k) := by rw [all, Nat.add_sub_of_le (by omega)]
        _ = 2 ^ m.log2 * 2 ^ k := Nat.pow_add ..
        _ ≤ m * 2 ^ k := Nat.mul_le_mul_right _ low
  refine ⟨⟨negative, m * 2 ^ k, e - k, fits, by omega, by omega, full⟩, ?_⟩
  rw [toRat_eq_withSign, step]
  dsimp only
  push_cast
  rw [mul_assoc, ← zpow_natCast, ← zpow_add₀ (by norm_num), add_sub_cancel]

/-- The greatest double. -/
def largest : Rat := (2 ^ 53 - 1 : Nat) * 2 ^ (971 : Int)

theorem abs_toRat_le (x : FiniteDouble) : |x.toRat| ≤ largest := by
  have significand : (x.significand : Rat) ≤ (2 ^ 53 - 1 : Nat) :=
    Nat.cast_le.2 (Nat.le_pred_of_lt x.significand_lt)
  have place : x.step ≤ 2 ^ (971 : Int) := zpow_le_zpow_right₀ (by norm_num) x.exponent_le
  rw [abs_toRat, largest]
  exact mul_le_mul significand place x.step_pos.le (Nat.cast_nonneg _)

theorem two_zpow_le_largest {e : Int} (most : e ≤ 971) : 2 ^ e ≤ largest := by
  have place : (2 : Rat) ^ e ≤ 2 ^ (971 : Int) := zpow_le_zpow_right₀ (by norm_num) most
  exact place.trans (le_mul_of_one_le_left (by positivity) (by norm_num))

theorem abs_toRat_lt {x : FiniteDouble} {e : Int} (lt : x.exponent < e) :
    |x.toRat| < 2 ^ 52 * 2 ^ e := by
  have significand : (x.significand : Rat) < 2 ^ 53 := by exact_mod_cast x.significand_lt
  have place : 2 * x.step ≤ 2 ^ e := by
    rw [step, ← zpow_one_add₀ (by norm_num)]
    exact zpow_le_zpow_right₀ (by norm_num) (by omega)
  have := x.step_pos
  rw [abs_toRat]
  nlinarith

theorem largest_lt : largest < 10 ^ (311 : Int) := by
  calc largest ≤ 2 ^ (53 : Int) * 2 ^ (971 : Int) := by
        refine mul_le_mul_of_nonneg_right ?_ (by positivity)
        norm_num
    _ = (2 ^ 33) ^ (31 : Int) * 2 := by
        rw [← zpow_add₀ (by norm_num), ← zpow_natCast, ← zpow_mul, ← zpow_add_one₀ (by norm_num)]
        rfl
    _ ≤ (10 ^ 10) ^ (31 : Int) * 2 :=
        mul_le_mul_of_nonneg_right (zpow_le_zpow_left₀ (by decide) (by norm_num) (by norm_num))
          (by norm_num)
    _ < (10 ^ 10) ^ (31 : Int) * 10 := mul_lt_mul_of_pos_left (by norm_num) (by positivity)
    _ = 10 ^ (311 : Int) := by
        rw [← zpow_natCast, ← zpow_mul, ← zpow_add_one₀ (by norm_num)]
        rfl

/-- A double is a multiple of a power of two, or it is smaller than that with 53 bits. -/
theorem multiple_or_lt (x : FiniteDouble) (e : Int) :
    (∃ n : Nat, |x.toRat| = n * 2 ^ e) ∨ x.exponent < e := by
  rcases le_or_gt e x.exponent with le | lt
  · left
    refine ⟨x.significand * 2 ^ (x.exponent - e).toNat, ?_⟩
    have up : ((x.exponent - e).toNat : Int) + e = x.exponent := by omega
    rw [abs_toRat, step]
    push_cast
    rw [mul_assoc, ← zpow_natCast, ← zpow_add₀ (by norm_num), up]
  · exact .inr lt

/-- A double without binary places is an integer. -/
theorem int_of_exponent {x : FiniteDouble} (whole : 0 ≤ x.exponent) : ∃ n : Int, x.toRat = n := by
  obtain ⟨up, same⟩ := Int.eq_ofNat_of_zero_le whole
  obtain ⟨n, value⟩ := withSign_natCast x.negative (x.significand * 2 ^ up)
  refine ⟨n, ?_⟩
  rw [x.toRat_eq_withSign, step, same, zpow_natCast, ← value]
  push_cast
  rfl

theorem mem_multiplesOf_step (x : FiniteDouble) : x.toRat ∈ multiplesOf x.step := by
  rw [x.toRat_eq_withSign]
  exact withSign_mem_multiplesOf _ _

/-- Among the multiples of a step below one are the integers. -/
theorem int_mem_multiplesOf_step {x : FiniteDouble} (low : x.exponent ≤ 0) (n : Int) :
    (n : Rat) ∈ multiplesOf x.step := by
  obtain ⟨down, same⟩ := Int.eq_ofNat_of_zero_le (Int.neg_nonneg_of_nonpos low)
  refine ⟨n * (2 ^ down : Nat), ?_⟩
  have place : ((2 ^ down : Nat) : Rat) * x.step = 1 := by
    rw [step, show x.exponent = -(down : Int) by omega, zpow_neg, zpow_natCast]
    push_cast
    exact mul_inv_cancel₀ (by positivity)
  rw [Int.cast_mul, Int.cast_natCast, mul_assoc, place, mul_one]

/-- The steps grow with the magnitude. -/
theorem step_le_step {x y : FiniteDouble} (le : |x.toRat| ≤ |y.toRat|) : x.step ≤ y.step := by
  refine zpow_le_zpow_right₀ (by norm_num) ?_
  by_contra above
  rcases x.canonical with full | last
  · have full : (2 : Rat) ^ 52 ≤ x.significand := by exact_mod_cast full
    have small := abs_toRat_lt (not_le.1 above)
    have least := mul_le_mul_of_nonneg_right full x.step_pos.le
    rw [← abs_toRat, step] at least
    linarith
  · have := y.le_exponent
    omega

/-- Only the zeros are two doubles of one value. -/
theorem eq_of_toRat {x y : FiniteDouble} (nonzero : x.toRat ≠ 0) (same : x.toRat = y.toRat) :
    x = y := by
  have size : |x.toRat| = |y.toRat| := by rw [same]
  have step_eq : x.step = y.step := le_antisymm (step_le_step size.le) (step_le_step size.ge)
  have exponent : x.exponent = y.exponent :=
    zpow_right_injective₀ (by norm_num) (by norm_num) step_eq
  have significand : x.significand = y.significand := by
    rw [abs_toRat, abs_toRat, step_eq] at size
    exact Nat.cast_injective (mul_right_cancel₀ y.step_pos.ne' size)
  have negative : x.negative = y.negative := by
    rcases lt_or_gt_of_ne nonzero with below | above
    · rw [negative_of_neg below, negative_of_neg (same ▸ below)]
    · rw [negative_of_pos above, negative_of_pos (same ▸ above)]
  cases x
  cases y
  simp_all

end FiniteDouble

theorem withSign_mem_doubles (negative : Bool) {m : Nat} {e : Int} (few : m < 2 ^ 53)
    (least : -1074 ≤ e) (most : e ≤ 971) : withSign negative (m * 2 ^ e) ∈ doubles :=
  FiniteDouble.exists_toRat negative few least most

/-- An integer of up to 53 bits is a double. -/
theorem int_mem_doubles {n : Int} (few : |n| < 2 ^ 53) : (n : Rat) ∈ doubles := by
  have few : n.natAbs < 2 ^ 53 := by
    rw [Int.abs_eq_natAbs] at few
    exact_mod_cast few
  have found := withSign_mem_doubles (decide (n < 0)) few (e := 0) (by omega) (by omega)
  have value : withSign (decide (n < 0)) (n.natAbs * 2 ^ (0 : Int)) = n := by
    rw [zpow_zero, mul_one, Nat.cast_natAbs, Int.cast_abs, withSign]
    by_cases negative : n < 0
    · have below : (n : Rat) < 0 := by exact_mod_cast negative
      simp [negative, abs_of_neg below]
    · have above : (0 : Rat) ≤ n := by exact_mod_cast not_lt.1 negative
      simp [negative, abs_of_nonneg above]
  rwa [value] at found

namespace FiniteDouble

variable {x : FiniteDouble}

/-- The integers next to a double with binary places are doubles. -/
theorem near_mem_doubles (low : x.exponent < 0) {n : Int} (near : |(n : Rat) - x.toRat| ≤ 1) :
    (n : Rat) ∈ doubles := by
  have size : |x.toRat| < 2 ^ 52 := by simpa using abs_toRat_lt low
  rw [abs_lt] at size
  rw [abs_le] at near
  refine int_mem_doubles (abs_lt.2 ⟨?_, ?_⟩)
  · have : -(2 ^ 53 : Rat) < n := by linarith
    exact_mod_cast this
  · have : (n : Rat) < 2 ^ 53 := by linarith
    exact_mod_cast this

theorem floor_mem_doubles (x : FiniteDouble) : ((⌊x.toRat⌋ : Int) : Rat) ∈ doubles := by
  rcases lt_or_ge x.exponent 0 with low | whole
  · have least := Int.floor_le x.toRat
    have most := Int.lt_floor_add_one x.toRat
    refine near_mem_doubles low ?_
    rw [abs_of_nonpos (by linarith)]
    linarith
  · obtain ⟨n, value⟩ := int_of_exponent whole
    rw [value, Int.floor_intCast, ← value]
    exact x.mem_doubles

theorem floor_add_one_mem_doubles (low : x.exponent < 0) :
    ((⌊x.toRat⌋ + 1 : Int) : Rat) ∈ doubles := by
  have least := Int.floor_le x.toRat
  have most := Int.lt_floor_add_one x.toRat
  refine near_mem_doubles low ?_
  push_cast
  rw [abs_of_nonneg (by linarith)]
  linarith

theorem ceil_mem_doubles (x : FiniteDouble) : ((⌈x.toRat⌉ : Int) : Rat) ∈ doubles := by
  rcases lt_or_ge x.exponent 0 with low | whole
  · have least := Int.le_ceil x.toRat
    have most := Int.ceil_lt_add_one x.toRat
    refine near_mem_doubles low ?_
    rw [abs_of_nonneg (by linarith)]
    linarith
  · obtain ⟨n, value⟩ := int_of_exponent whole
    rw [value, Int.ceil_intCast, ← value]
    exact x.mem_doubles

end FiniteDouble

theorem zero_mem_doubles : (0 : Rat) ∈ doubles := by
  exact_mod_cast int_mem_doubles (n := 0) (by decide)

/-- Every double is a multiple of the least one. -/
theorem doubles_subset : doubles ⊆ multiplesOf (2 ^ (-1074 : Int)) := by
  rintro _ ⟨x, rfl⟩
  have magnitude : ∃ n : Nat, x.significand * x.step = n * 2 ^ (-1074 : Int) := by
    rcases x.multiple_or_lt (-1074) with ⟨n, multiple⟩ | below
    · exact ⟨n, x.abs_toRat ▸ multiple⟩
    · exact absurd x.le_exponent (not_le.2 below)
  obtain ⟨n, same⟩ := magnitude
  rw [x.toRat_eq_withSign, same]
  exact withSign_mem_multiplesOf x.negative n

/-! ## Rounding a quotient -/

namespace Double

theorem zpow_le_div_iff {num den : Nat} (pos : 0 < den) (e : Int) :
    (2 : Rat) ^ e ≤ num / den ↔ den * 2 ^ e.toNat ≤ num * 2 ^ (-e).toNat := by
  have pos : (0 : Rat) < den := by exact_mod_cast pos
  have down : (0 : Rat) < 2 ^ (-e).toNat := by positivity
  rw [zpow_eq_div, div_le_div_iff₀ down pos, mul_comm ((2 : Rat) ^ e.toNat), ← @Nat.cast_le Rat]
  push_cast
  rfl

theorem binaryPower_bounds {num den : Nat} (num_pos : 0 < num) (den_pos : 0 < den) :
    (2 : Rat) ^ binaryPower num den ≤ num / den ∧
      (num / den : Rat) < 2 ^ (binaryPower num den + 1) := by
  have bits {n : Nat} (pos : 0 < n) :
      (2 : Rat) ^ (n.log2 : Int) ≤ n ∧ (n : Rat) < 2 ^ (n.log2 + 1 : Int) := by
    obtain ⟨low, high⟩ := (Nat.log2_eq_iff pos.ne').1 rfl
    exact ⟨by exact_mod_cast low, by exact_mod_cast high⟩
  obtain ⟨numLow, numHigh⟩ := bits num_pos
  obtain ⟨denLow, denHigh⟩ := bits den_pos
  have pos : (0 : Rat) < den := by exact_mod_cast den_pos
  have high : (num / den : Rat) < 2 ^ ((num.log2 : Int) - den.log2 + 1) := by
    rw [div_lt_iff₀ pos]
    calc (num : Rat) < 2 ^ (num.log2 + 1 : Int) := numHigh
      _ = 2 ^ ((num.log2 : Int) - den.log2 + 1) * 2 ^ (den.log2 : Int) := by
        rw [← zpow_add₀ (by norm_num)]
        congr 1
        omega
      _ ≤ _ := mul_le_mul_of_nonneg_left denLow (by positivity)
  have low : (2 : Rat) ^ ((num.log2 : Int) - den.log2 - 1) ≤ num / den := by
    rw [le_div_iff₀ pos]
    calc (2 : Rat) ^ ((num.log2 : Int) - den.log2 - 1) * den
        ≤ 2 ^ ((num.log2 : Int) - den.log2 - 1) * 2 ^ (den.log2 + 1 : Int) :=
          mul_le_mul_of_nonneg_left denHigh.le (by positivity)
      _ = 2 ^ (num.log2 : Int) := by
        rw [← zpow_add₀ (by norm_num)]
        congr 1
        omega
      _ ≤ num := numLow
  rw [binaryPower]
  split
  · next reached => exact ⟨(zpow_le_div_iff den_pos _).2 reached, high⟩
  · next below =>
    rw [← zpow_le_div_iff den_pos, not_le] at below
    exact ⟨low, by rwa [sub_add_cancel]⟩

/-- The place of the last bit that a quotient keeps. -/
def lastPlace (num den : Nat) : Int := max (-1074) (binaryPower num den - 52)

/-- A quotient in units of its last place, rounded. -/
def rounded (num den : Nat) : Nat :=
  roundDiv (num * 2 ^ (-lastPlace num den).toNat) (den * 2 ^ (lastPlace num den).toNat) .toEven

theorem nearest_eq (negative : Bool) {num den : Nat} (nonzero : num ≠ 0) :
    nearest negative num den =
      if rounded num den = 2 ^ 53 then ofParts negative (2 ^ 52) (lastPlace num den + 1)
      else ofParts negative (rounded num den) (lastPlace num den) :=
  if_neg nonzero

variable {num den : Nat}

theorem le_lastPlace (num den : Nat) : -1074 ≤ lastPlace num den := le_max_left _ _

theorem lt_lastPlace (num_pos : 0 < num) (den_pos : 0 < den) :
    (num / den : Rat) < 2 ^ 53 * 2 ^ lastPlace num den := by
  refine (binaryPower_bounds num_pos den_pos).2.trans_le ?_
  rw [← zpow_natCast, ← zpow_add₀ (by norm_num)]
  refine zpow_le_zpow_right₀ (by norm_num) ?_
  rw [lastPlace]
  push_cast
  omega

theorem lastPlace_le (num_pos : 0 < num) (den_pos : 0 < den) :
    lastPlace num den = -1074 ∨ 2 ^ 52 * (2 : Rat) ^ lastPlace num den ≤ num / den := by
  by_cases least : lastPlace num den = -1074
  · exact .inl least
  · refine .inr (le_trans ?_ (binaryPower_bounds num_pos den_pos).1)
    rw [← zpow_natCast, ← zpow_add₀ (by norm_num)]
    refine zpow_le_zpow_right₀ (by norm_num) ?_
    rw [lastPlace] at *
    push_cast
    omega

/-- In units of the last place a quotient is a quotient of integers. -/
theorem div_lastPlace (num den : Nat) :
    ((num * 2 ^ (-lastPlace num den).toNat : Nat) : Rat) /
      (den * 2 ^ (lastPlace num den).toNat : Nat) = num / den / 2 ^ lastPlace num den := by
  rw [zpow_eq_div]
  push_cast
  rw [div_div_eq_mul_div, div_mul_eq_mul_div, div_div]

/-- A quotient is rounded by half a unit of its last place at most. -/
theorem abs_sub_rounded_le (num : Nat) (den_pos : 0 < den) :
    |(num / den : Rat) - rounded num den * 2 ^ lastPlace num den| ≤ 2 ^ lastPlace num den / 2 := by
  have unit : 0 < den * 2 ^ (lastPlace num den).toNat := by positivity
  have near := abs_sub_roundDiv_le (num * 2 ^ (-lastPlace num den).toNat) .toEven unit
  rw [div_lastPlace, ← rounded] at near
  exact abs_sub_mul_le (by positivity) near

/-- A rounded quotient is the nearest number of units of its last place. -/
theorem isNearest_rounded (num : Nat) (den_pos : 0 < den) :
    IsNearest (multiplesOf (2 ^ lastPlace num den)) (num / den)
      (rounded num den * 2 ^ lastPlace num den) :=
  isNearest_multiple (by positivity) (n := rounded num den) (abs_sub_rounded_le num den_pos)

theorem rounded_le (num_pos : 0 < num) (den_pos : 0 < den) : rounded num den ≤ 2 ^ 53 := by
  have near := abs_sub_rounded_le num den_pos
  have small := lt_lastPlace num_pos den_pos
  have pos : (0 : Rat) < 2 ^ lastPlace num den := by positivity
  rw [abs_le] at near
  have less : (rounded num den : Rat) * 2 ^ lastPlace num den < (2 ^ 53 + 1) * 2 ^ lastPlace num den := by
    linarith
  have := lt_of_mul_lt_mul_right less pos.le
  have : rounded num den < 2 ^ 53 + 1 := by exact_mod_cast this
  omega

theorem le_rounded (num_pos : 0 < num) (den_pos : 0 < den) :
    lastPlace num den = -1074 ∨ 2 ^ 52 ≤ rounded num den := by
  refine (lastPlace_le num_pos den_pos).imp_right fun large => ?_
  have near := abs_sub_rounded_le num den_pos
  have pos : (0 : Rat) < 2 ^ lastPlace num den := by positivity
  rw [abs_le] at near
  have less : (2 ^ 52 - 1) * (2 : Rat) ^ lastPlace num den <
      rounded num den * 2 ^ lastPlace num den := by
    linarith
  have := lt_of_mul_lt_mul_right less pos.le
  have : (2 : Rat) ^ 52 < rounded num den + 1 := by linarith
  have : 2 ^ 52 < rounded num den + 1 := by exact_mod_cast this
  omega

theorem ofParts_eq_finite {negative : Bool} {significand : Nat} {exponent : Int} {y : FiniteDouble}
    (found : ofParts negative significand exponent = .finite y) :
    y.negative = negative ∧ y.significand = significand ∧ y.exponent = exponent := by
  unfold ofParts at found
  split at found
  · cases found
    exact ⟨rfl, rfl, rfl⟩
  · cases found

/-- A double that a quotient is rounded to is the rounded number of units of its last place. -/
theorem nearest_eq_finite {negative : Bool} {y : FiniteDouble} (num_pos : 0 < num)
    (found : nearest negative num den = .finite y) :
    y.negative = negative ∧ y.toRat = withSign negative (rounded num den * 2 ^ lastPlace num den) ∧
      lastPlace num den ≤ y.exponent := by
  rw [nearest_eq negative num_pos.ne'] at found
  split at found
  · next carried =>
    obtain ⟨sign, significand, exponent⟩ := ofParts_eq_finite found
    refine ⟨sign, ?_, by omega⟩
    rw [y.toRat_eq_withSign, FiniteDouble.step, sign, significand, exponent, carried,
      zpow_add_one₀ (by norm_num)]
    congr 1
    push_cast
    ring
  · obtain ⟨sign, significand, exponent⟩ := ofParts_eq_finite found
    refine ⟨sign, ?_, exponent.ge⟩
    rw [y.toRat_eq_withSign, FiniteDouble.step, sign, significand, exponent]

theorem nearest_zero (negative : Bool) (den : Nat) : nearest negative 0 den = zero negative := if_pos rfl

theorem toRat_zero (negative : Bool) : (FiniteDouble.zero negative).toRat = 0 := by
  rw [FiniteDouble.toRat_eq_withSign]
  cases negative <;> simp [FiniteDouble.zero, withSign]

/-- A quotient is rounded by half a step of the result at most. -/
theorem abs_sub_nearest_le {negative : Bool} {y : FiniteDouble} (den_pos : 0 < den)
    (found : nearest negative num den = .finite y) :
    |withSign negative (num / den) - y.toRat| ≤ y.step / 2 := by
  rcases Nat.eq_zero_or_pos num with rfl | num_pos
  · rw [nearest_zero] at found
    cases found
    have := (FiniteDouble.zero negative).step_pos
    rw [toRat_zero, sub_zero, abs_withSign, Nat.cast_zero, zero_div, abs_zero]
    linarith
  · obtain ⟨-, value, place⟩ := nearest_eq_finite num_pos found
    have grow : (2 : Rat) ^ lastPlace num den ≤ y.step := zpow_le_zpow_right₀ (by norm_num) place
    rw [value, abs_withSign_sub]
    have := abs_sub_rounded_le num den_pos
    linarith

/-- No double is nearer to a quotient than the one it is rounded to. -/
theorem isNearest_nearest {negative : Bool} {y : FiniteDouble} (den_pos : 0 < den)
    (found : nearest negative num den = .finite y) :
    IsNearest doubles (withSign negative (num / den)) y.toRat := by
  refine ⟨y.mem_doubles, ?_⟩
  rintro _ ⟨z, rfl⟩
  rcases Nat.eq_zero_or_pos num with rfl | num_pos
  · rw [nearest_zero] at found
    cases found
    rw [toRat_zero, sub_zero, abs_withSign, Nat.cast_zero, zero_div, abs_zero]
    exact abs_nonneg _
  · obtain ⟨-, value, -⟩ := nearest_eq_finite num_pos found
    have pos : (0 : Rat) < 2 ^ lastPlace num den := by positivity
    have units := isNearest_rounded num den_pos
    have size : (0 : Rat) ≤ num / den := by positivity
    rw [value, abs_withSign_sub]
    refine le_trans ?_ (le_abs_withSign_sub negative size z.toRat)
    rcases z.multiple_or_lt (lastPlace num den) with ⟨n, multiple⟩ | below
    · exact units.least _ ⟨n, multiple⟩
    · -- A double with smaller steps lies below a unit that the quotient reaches.
      have large := (lastPlace_le num_pos den_pos).resolve_left fun least => by
        have := z.le_exponent
        omega
      have small := FiniteDouble.abs_toRat_lt below
      have near := units.least (2 ^ 52 * 2 ^ lastPlace num den) ⟨2 ^ 52, by push_cast; rfl⟩
      rw [abs_of_nonneg (sub_nonneg.2 large)] at near
      rw [abs_of_pos (a := (num / den : Rat) - |z.toRat|) (by linarith)]
      linarith

theorem lastPlace_bounded (num_pos : 0 < num) (den_pos : 0 < den)
    (within : (num / den : Rat) ≤ FiniteDouble.largest) :
    lastPlace num den < 971 ∨ lastPlace num den = 971 ∧ rounded num den < 2 ^ 53 := by
  rw [FiniteDouble.largest] at within
  have le : lastPlace num den ≤ 971 := by
    rcases lastPlace_le num_pos den_pos with least | large
    · omega
    · have below : ((2 ^ 53 - 1 : Nat) : Rat) < 2 ^ 53 := by norm_num
      have lt : 2 ^ 52 * (2 : Rat) ^ lastPlace num den < 2 ^ 53 * 2 ^ (971 : Int) :=
        (large.trans within).trans_lt (mul_lt_mul_of_pos_right below (by positivity))
      rw [← zpow_natCast, ← zpow_natCast, ← zpow_add₀ (by norm_num), ← zpow_add₀ (by norm_num)] at lt
      have := (zpow_lt_zpow_iff_right₀ (by norm_num)).1 lt
      omega
  rcases le.lt_or_eq with lt | last
  · exact .inl lt
  · refine .inr ⟨last, ?_⟩
    have nearest := isNearest_rounded num den_pos
    rw [last] at nearest
    have most := nearest.le_of_le ⟨(2 ^ 53 - 1 : Nat), by rw [Int.cast_natCast]⟩ within
    have few := Nat.cast_le.1 (le_of_mul_le_mul_right most (by positivity))
    omega

/-- What is not larger than the greatest double is rounded to one. -/
theorem nearest_isFinite (negative : Bool) (den_pos : 0 < den)
    (within : (num / den : Rat) ≤ FiniteDouble.largest) :
    ∃ y, nearest negative num den = .finite y := by
  rcases Nat.eq_zero_or_pos num with rfl | num_pos
  · exact ⟨_, nearest_zero negative den⟩
  have most := rounded_le num_pos den_pos
  have least := le_rounded num_pos den_pos
  have place := le_lastPlace num den
  have bounded := lastPlace_bounded num_pos den_pos within
  rw [nearest_eq negative num_pos.ne']
  split
  · exact ofParts_isFinite negative le_rfl (by decide) (by omega) (by omega)
  · next stays =>
    exact ⟨_, dif_pos ⟨by omega, by omega, by omega, by omega⟩⟩

/-- A quotient that is a double is kept. -/
theorem nearest_of_mem {negative : Bool} (den_pos : 0 < den)
    (mem : withSign negative (num / den) ∈ doubles) :
    ∃ y, nearest negative num den = .finite y ∧ y.toRat = withSign negative (num / den) := by
  obtain ⟨z, value⟩ := mem
  have size : (0 : Rat) ≤ num / den := by positivity
  have within := z.abs_toRat_le
  rw [value, abs_withSign, abs_of_nonneg size] at within
  obtain ⟨y, found⟩ := nearest_isFinite negative den_pos within
  exact ⟨y, found, (isNearest_nearest den_pos found).eq_of_mem ⟨z, value⟩⟩

/-! ## The value alone counts -/

theorem binaryPower_congr {num' den' : Nat} (num_pos : 0 < num) (den_pos : 0 < den)
    (num_pos' : 0 < num') (den_pos' : 0 < den') (same : (num / den : Rat) = num' / den') :
    binaryPower num den = binaryPower num' den' := by
  obtain ⟨low, high⟩ := binaryPower_bounds num_pos den_pos
  obtain ⟨low', high'⟩ := binaryPower_bounds num_pos' den_pos'
  rw [← same] at low' high'
  have := (zpow_lt_zpow_iff_right₀ (by norm_num)).1 (low.trans_lt high')
  have := (zpow_lt_zpow_iff_right₀ (by norm_num)).1 (low'.trans_lt high)
  omega

theorem nearest_congr (negative : Bool) {num' den' : Nat} (den_pos : 0 < den) (den_pos' : 0 < den')
    (same : (num / den : Rat) = num' / den') :
    nearest negative num den = nearest negative num' den' := by
  have above : (den : Rat) ≠ 0 := by exact_mod_cast den_pos.ne'
  have above' : (den' : Rat) ≠ 0 := by exact_mod_cast den_pos'.ne'
  have cross : num * den' = num' * den := by
    rw [div_eq_div_iff above above'] at same
    exact_mod_cast same
  rcases Nat.eq_zero_or_pos num with rfl | num_pos
  · rw [Nat.zero_mul, zero_eq_mul, or_iff_left den_pos.ne'] at cross
    rw [cross, nearest_zero, nearest_zero]
  · have num_pos' : 0 < num' := by
      refine Nat.pos_of_ne_zero fun none => ?_
      rw [none, Nat.zero_mul, Nat.mul_eq_zero] at cross
      omega
    have place : lastPlace num den = lastPlace num' den' := by
      rw [lastPlace, lastPlace, binaryPower_congr num_pos den_pos num_pos' den_pos' same]
    have units : rounded num den = rounded num' den' := by
      rw [rounded, rounded, place]
      refine roundDiv_congr .toEven (by positivity) (by positivity) ?_
      rw [Nat.mul_mul_mul_comm, cross, Nat.mul_mul_mul_comm]
    rw [nearest_eq negative num_pos.ne', nearest_eq negative num_pos'.ne', place, units]

/-! ## Rational numbers -/

theorem withSign_natAbs (q : Rat) : withSign (decide (q < 0)) (q.num.natAbs / q.den) = q := by
  have size : (q.num.natAbs / q.den : Rat) = |q| := by
    rw [Nat.cast_natAbs, Int.cast_abs, ← abs_of_nonneg (Nat.cast_nonneg (α := Rat) q.den),
      ← abs_div, Rat.num_div_den]
  rw [size, withSign]
  rcases lt_or_ge q 0 with negative | nonneg
  · simp [negative, abs_of_neg negative]
  · simp [not_lt.2 nonneg, abs_of_nonneg nonneg]

variable {q : Rat} {sign : Bool} {y : FiniteDouble}

theorem ofRat_zero (sign : Bool) : ofRat sign 0 = zero sign := if_pos rfl

theorem isNearest_ofRat (found : ofRat sign q = .finite y) : IsNearest doubles q y.toRat := by
  unfold ofRat at found
  split at found
  · next none =>
    cases found
    rw [none, toRat_zero]
    exact .of_mem zero_mem_doubles
  · have nearest := isNearest_nearest q.den_pos found
    rwa [withSign_natAbs] at nearest

theorem abs_sub_ofRat_le (found : ofRat sign q = .finite y) : |q - y.toRat| ≤ y.step / 2 := by
  unfold ofRat at found
  split at found
  · next none =>
    cases found
    have := (FiniteDouble.zero sign).step_pos
    rw [none, toRat_zero, sub_zero, abs_zero]
    linarith
  · have near := abs_sub_nearest_le q.den_pos found
    rwa [withSign_natAbs] at near

theorem ofRat_isFinite (sign : Bool) (within : |q| ≤ FiniteDouble.largest) :
    ∃ y, ofRat sign q = .finite y := by
  unfold ofRat
  split
  · exact ⟨_, rfl⟩
  · refine nearest_isFinite _ q.den_pos ?_
    rwa [← withSign_natAbs q, abs_withSign, abs_of_nonneg (by positivity)] at within

theorem ofRat_of_mem (sign : Bool) (mem : q ∈ doubles) :
    ∃ y, ofRat sign q = .finite y ∧ y.toRat = q := by
  obtain ⟨z, rfl⟩ := mem
  obtain ⟨y, found⟩ := ofRat_isFinite sign z.abs_toRat_le
  exact ⟨y, found, (isNearest_ofRat found).eq_of_mem z.mem_doubles⟩

theorem ofInt_of_few {n : Int} (few : |n| < 2 ^ 53) : ∃ y, ofInt n = .finite y ∧ y.toRat = n := by
  have value : withSign (decide (n < 0)) (n.natAbs / (1 : Nat)) = n := by
    have sign : decide ((n : Rat) < 0) = decide (n < 0) := decide_eq_decide.2 Rat.intCast_neg_iff
    have := withSign_natAbs n
    rwa [Rat.num_intCast, Rat.den_intCast, sign] at this
  have exact := @nearest_of_mem n.natAbs 1 (decide (n < 0)) Nat.one_pos
    (by rw [value]; exact int_mem_doubles few)
  rwa [value] at exact

/-! ## Decimals -/

theorem toRat_eq_div (x : Scaled) : x.toRat = withSign x.negative
    ((x.coefficient * 10 ^ x.exponent.toNat : Nat) / (10 ^ (-x.exponent).toNat : Nat)) := by
  rw [x.toRat_eq_withSign, zpow_eq_div]
  push_cast
  rw [mul_div_assoc]

/-- What is at most half the least double from zero has zero as its nearest. -/
theorem isNearest_zero (small : |q| ≤ 2 ^ (-1074 : Int) / 2) : IsNearest doubles q 0 := by
  have pos : (0 : Rat) < 2 ^ (-1074 : Int) := by positivity
  have units := isNearest_multiple pos (q := q) (n := 0) (by simpa using small)
  rw [Int.cast_zero, zero_mul] at units
  exact units.of_subset doubles_subset zero_mem_doubles

theorem abs_toRat_small {x : Scaled} (nonzero : x.coefficient ≠ 0) (low : x.leadingPower < -330) :
    |x.toRat| ≤ 2 ^ (-1074 : Int) / 2 := by
  obtain ⟨-, below⟩ := Scaled.leadingPower_bounds nonzero
  calc |x.toRat| ≤ 10 ^ (x.leadingPower + 1) := below.le
    _ ≤ 10 ^ (-330 : Int) := zpow_le_zpow_right₀ (by norm_num) (by omega)
    _ = (10 ^ 11) ^ (-30 : Int) := by rw [← zpow_natCast, ← zpow_mul]; rfl
    _ ≤ (2 ^ 36) ^ (-30 : Int) := by
      rw [zpow_neg, zpow_neg]
      exact inv_anti₀ (by positivity) (zpow_le_zpow_left₀ (by decide) (by norm_num) (by norm_num))
    _ = 2 ^ (-1080 : Int) := by rw [← zpow_natCast, ← zpow_mul]; rfl
    _ ≤ 2 ^ (-1074 - 1 : Int) := zpow_le_zpow_right₀ (by norm_num) (by norm_num)
    _ = 2 ^ (-1074 : Int) / 2 := zpow_sub_one₀ (by norm_num) _

/-- Reading takes the number itself, or goes by its size to zero or beyond the range. -/
theorem ofScaled_cases (x : Scaled) :
    ofScaled x = zero x.negative ∧ |x.toRat| ≤ 2 ^ (-1074 : Int) / 2 ∨
      x.coefficient ≠ 0 ∧ 310 < x.leadingPower ∧ ofScaled x = .infinite x.negative ∨
      ofScaled x = nearest x.negative (x.coefficient * 10 ^ x.exponent.toNat)
        (10 ^ (-x.exponent).toNat) := by
  unfold ofScaled
  split
  · next none =>
    refine .inl ⟨rfl, ?_⟩
    rw [x.abs_toRat_eq_zero.2 none]
    positivity
  · next some =>
    split
    · next high => exact .inr (.inl ⟨some, high, rfl⟩)
    · split
      · next low => exact .inl ⟨rfl, abs_toRat_small some low⟩
      · exact .inr (.inr rfl)

/-- A decimal is read as a nearest double. -/
theorem isNearest_ofScaled {x : Scaled} (found : ofScaled x = .finite y) :
    IsNearest doubles x.toRat y.toRat := by
  rcases ofScaled_cases x with ⟨read, small⟩ | ⟨-, -, read⟩ | read
  · rw [read] at found
    cases found
    rw [toRat_zero]
    exact isNearest_zero small
  · rw [read] at found
    cases found
  · rw [read] at found
    rw [toRat_eq_div]
    exact isNearest_nearest (by positivity) found

theorem abs_sub_ofScaled_le {x : Scaled} (found : ofScaled x = .finite y) :
    |x.toRat - y.toRat| ≤ y.step / 2 := by
  rcases ofScaled_cases x with ⟨read, small⟩ | ⟨-, -, read⟩ | read
  · rw [read] at found
    cases found
    rw [toRat_zero, sub_zero]
    exact small
  · rw [read] at found
    cases found
  · rw [read] at found
    rw [toRat_eq_div]
    exact abs_sub_nearest_le (by positivity) found

theorem ofScaled_isFinite {x : Scaled} (within : |x.toRat| ≤ FiniteDouble.largest) :
    ∃ y, ofScaled x = .finite y := by
  rcases ofScaled_cases x with ⟨read, -⟩ | ⟨nonzero, high, -⟩ | read
  · exact ⟨_, read⟩
  · obtain ⟨large, -⟩ := Scaled.leadingPower_bounds nonzero
    have most : (10 : Rat) ^ (311 : Int) ≤ 10 ^ x.leadingPower :=
      zpow_le_zpow_right₀ (by norm_num) (by omega)
    have := FiniteDouble.largest_lt
    linarith
  · rw [read]
    refine nearest_isFinite _ (by positivity) ?_
    rwa [toRat_eq_div, abs_withSign, abs_of_nonneg (by positivity)] at within

/-- A decimal is read by its sign and its value alone. -/
theorem ofScaled_congr {x y : Scaled} (sign : x.negative = y.negative) (value : x.toRat = y.toRat) :
    ofScaled x = ofScaled y := by
  have size : |x.toRat| = |y.toRat| := by rw [value]
  have zeros : x.coefficient = 0 ↔ y.coefficient = 0 := by
    rw [← x.abs_toRat_eq_zero, ← y.abs_toRat_eq_zero, size]
  unfold ofScaled
  by_cases none : x.coefficient = 0
  · rw [if_pos none, if_pos (zeros.1 none), sign]
  · have power : x.leadingPower = y.leadingPower := by
      obtain ⟨low, high⟩ := Scaled.leadingPower_bounds none
      obtain ⟨low', high'⟩ := Scaled.leadingPower_bounds (mt zeros.2 none)
      rw [← size] at low' high'
      have := (zpow_lt_zpow_iff_right₀ (by norm_num)).1 (low.trans_lt high')
      have := (zpow_lt_zpow_iff_right₀ (by norm_num)).1 (low'.trans_lt high)
      omega
    rw [if_neg none, if_neg (mt zeros.2 none), power, sign]
    congr 2
    refine nearest_congr _ (by positivity) (by positivity) ?_
    rwa [toRat_eq_div, toRat_eq_div, abs_withSign, abs_withSign, abs_of_nonneg (by positivity),
      abs_of_nonneg (by positivity)] at size

end Double

end MediaCommand
