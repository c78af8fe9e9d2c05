import MediaCommand.Proofs.Number.Doubles

/-!
# Whole quotients of doubles

A double that is not negative is divided by a positive integer to the floor
(`Double.floorDivMod_integer`). The remainder is exact at any size; the quotient is the exact floor
while all integers up to the double are doubles, and at any size finite and not negative.
-/

namespace MediaCommand

/-! ## Rests -/

/-- What is left of a number over whole widths. -/
def restOver (q : Rat) (width : Nat) : Rat := q - (width * ⌊q / width⌋ : Int)

section Rest

variable (q : Rat) {width : Nat}

theorem restOver_nonneg (pos : 0 < width) : 0 ≤ restOver q width := by
  have pos : (0 : Rat) < width := by exact_mod_cast pos
  have least := mul_le_mul_of_nonneg_left (Int.floor_le (q / width)) pos.le
  rw [mul_div_cancel₀ _ pos.ne'] at least
  rw [restOver]
  push_cast
  linarith

theorem restOver_lt (pos : 0 < width) : restOver q width < width := by
  have pos : (0 : Rat) < width := by exact_mod_cast pos
  have most := mul_lt_mul_of_pos_left (Int.lt_floor_add_one (q / width)) pos
  rw [mul_div_cancel₀ _ pos.ne'] at most
  rw [restOver]
  push_cast
  linarith

/-- The widths that a rest over a multiple of the width leaves out. -/
theorem floor_restOver (many : Nat) (pos : 0 < width) :
    ⌊restOver q (many * width) / width⌋ =
      ⌊q / width⌋ - many * ⌊q / (many * width : Nat)⌋ := by
  have pos : (0 : Rat) < width := by exact_mod_cast pos
  have quotient : restOver q (many * width) / width =
      q / width - (many * ⌊q / (many * width : Nat)⌋ : Int) := by
    rw [restOver, sub_div]
    push_cast
    rw [mul_right_comm, mul_div_cancel_right₀ _ pos.ne']
  rw [quotient, Int.floor_sub_intCast]

theorem floor_restOver_lt (many : Nat) (pos : 0 < many * width) :
    ⌊restOver q (many * width) / width⌋ < many := by
  have some : (0 : Rat) < width := by exact_mod_cast Nat.pos_of_mul_pos_left pos
  rw [Int.floor_lt, div_lt_iff₀ some]
  exact_mod_cast restOver_lt q pos

theorem restOver_restOver (many : Nat) (pos : 0 < width) :
    restOver (restOver q (many * width)) width = restOver q width := by
  rw [restOver, floor_restOver q many pos, restOver, restOver]
  push_cast
  ring

theorem restOver_natCast (n : Nat) : restOver n width = (n % width : Nat) := by
  have parts : ((width * (n / width) + n % width : Nat) : Rat) = n := by rw [Nat.div_add_mod]
  rw [Nat.cast_add, Nat.cast_mul] at parts
  rw [restOver, Rat.floor_natCast_div_natCast, ← Int.natCast_ediv, Int.cast_mul, Int.cast_natCast,
    Int.cast_natCast]
  linarith

end Rest

namespace FiniteDouble

variable {x : FiniteDouble}

theorem isZero_iff : x.isZero = true ↔ x.toRat = 0 := by
  rw [isZero, beq_iff_eq, ← abs_eq_zero, abs_toRat, mul_eq_zero, Nat.cast_eq_zero,
    or_iff_left x.step_pos.ne']

/-- Only a zero has a sign without being negative. -/
theorem negative_of_nonneg (nonneg : 0 ≤ x.toRat) (some : x.isZero = false) : x.negative = false := by
  refine negative_of_pos (lt_of_le_of_ne nonneg fun zero => ?_)
  rw [isZero_iff.2 zero.symm] at some
  cases some

theorem toRat_neg (x : FiniteDouble) : toRat { x with negative := !x.negative } = -x.toRat := by
  rw [toRat_eq_withSign, toRat_eq_withSign, withSign, withSign, step, step]
  cases x.negative <;> simp

theorem truncate_of_nonneg (nonneg : 0 ≤ x.toRat) : x.truncate = ⌊x.toRat⌋ := by
  have value := x.toRat_eq_withSign
  rw [step, zpow_eq_div, ← mul_div_assoc] at value
  have floor : ⌊(x.significand * 2 ^ x.exponent.toNat : Rat) / 2 ^ (-x.exponent).toNat⌋ =
      (x.significand * 2 ^ x.exponent.toNat / 2 ^ (-x.exponent).toNat : Nat) := by
    exact_mod_cast Rat.floor_natCast_div_natCast (x.significand * 2 ^ x.exponent.toNat)
      (2 ^ (-x.exponent).toNat)
  cases sign : x.negative with
  | false =>
    rw [sign, withSign, if_neg (by decide)] at value
    rw [truncate, sign, value, floor]
    rfl
  | true =>
    -- Only a zero is negative without being less than zero.
    have none : x.significand = 0 := by
      have size := x.abs_toRat
      rw [sign, withSign, if_pos rfl] at value
      have zero : x.toRat = 0 := le_antisymm (by rw [value]; exact neg_nonpos.2 (by positivity)) nonneg
      rw [zero, abs_zero, zero_eq_mul, or_iff_left x.step_pos.ne'] at size
      exact_mod_cast size
    rw [truncate, x.toRat_eq_withSign, sign, none]
    simp [withSign]

/-- What a double leaves over an integer is a double when it has few bits in front of the point. -/
theorem rest_mem_doubles {n : Int} (whole : 0 ≤ n) (nonneg : 0 ≤ x.toRat - n)
    (few : x.toRat - n < 2 ^ 53) : x.toRat - n ∈ doubles := by
  rcases le_or_gt 0 x.exponent with integer | low
  · obtain ⟨m, value⟩ := int_of_exponent integer
    have rest : x.toRat - n = (m - n : Int) := by rw [value, Int.cast_sub]
    rw [rest] at nonneg few ⊢
    exact int_mem_doubles (abs_lt.2 ⟨by
      have : (0 : Int) ≤ m - n := by exact_mod_cast nonneg
      omega, by exact_mod_cast few⟩)
  · -- The rest is a number of the same steps, and of no more of them.
    obtain ⟨m, value⟩ := x.mem_multiplesOf_step
    obtain ⟨k, same⟩ := int_mem_multiplesOf_step low.le n
    have rest : x.toRat - n = (m - k : Int) * x.step := by
      rw [value, same, ← sub_mul, Int.cast_sub]
    have pos := x.step_pos
    have least : 0 ≤ m - k := by
      rw [rest] at nonneg
      exact_mod_cast nonneg_of_mul_nonneg_left nonneg pos
    obtain ⟨units, count⟩ := Int.eq_ofNat_of_zero_le least
    rw [count, Int.cast_natCast] at rest
    have most : (units : Rat) * x.step ≤ x.significand * x.step := by
      have : (0 : Rat) ≤ n := by exact_mod_cast whole
      have size := le_abs_self x.toRat
      rw [abs_toRat] at size
      linarith
    have le : units ≤ x.significand := by exact_mod_cast le_of_mul_le_mul_right most pos
    rw [rest]
    exact withSign_mem_doubles false (le.trans_lt x.significand_lt) x.le_exponent x.exponent_le

end FiniteDouble

namespace Double

variable {x w r : FiniteDouble} {width : Nat}

/-! ## Differences and quotients -/

theorem sub_finite (x y : FiniteDouble) : (finite x).sub (.finite y) =
    ofRat (x.negative && !y.negative) (x.toRat - y.toRat) := by
  rw [sub, neg, add, FiniteDouble.toRat_neg, ← sub_eq_add_neg]

theorem div_finite {y : FiniteDouble} (nonzero : y.toRat ≠ 0) (x : FiniteDouble) :
    (finite x).div (.finite y) = ofRat (x.negative != y.negative) (x.toRat / y.toRat) := by
  rw [div, if_neg (mt FiniteDouble.isZero_iff.1 nonzero)]

theorem isPositive_finite : (finite x).isPositive = true ↔ 0 < x.toRat := by
  have zero_toRat : (FiniteDouble.zero false).toRat = 0 := toRat_zero false
  rw [isPositive, zero, compare?, Scaled.compare_eq, FiniteDouble.toRat_toScaled,
    FiniteDouble.toRat_toScaled, zero_toRat, beq_iff_eq, Option.some_inj, cmp_eq_gt_iff]

/-- A quotient of positive doubles is not negative. -/
theorem div_nonneg_of_positive {p q : Double} (left : p.isPositive = true)
    (right : q.isPositive = true) (found : p.div q = .finite x) : 0 ≤ x.toRat := by
  cases p with
  | finite a =>
    cases q with
    | finite b =>
      have a_pos := isPositive_finite.1 left
      have b_pos := isPositive_finite.1 right
      rw [div_finite b_pos.ne'] at found
      exact (isNearest_ofRat found).le_of_ge zero_mem_doubles (div_pos a_pos b_pos).le
    | infinite negative =>
      rw [div, zero, Double.finite.injEq] at found
      rw [← found, toRat_zero]
    | nan => cases found
  | infinite negative => cases q <;> cases found
  | nan => cases q <;> cases found

/-- What lies between zero and a double is rounded to a double between them. -/
theorem ofRat_between {q : Rat} (sign : Bool) (nonneg : 0 ≤ q) (le : q ≤ x.toRat) :
    ∃ y, ofRat sign q = .finite y ∧ 0 ≤ y.toRat ∧ y.toRat ≤ x.toRat := by
  have within : |q| ≤ FiniteDouble.largest := by
    rw [abs_of_nonneg nonneg]
    exact le.trans ((le_abs_self _).trans x.abs_toRat_le)
  obtain ⟨y, found⟩ := ofRat_isFinite sign within
  have nearest := isNearest_ofRat found
  exact ⟨y, found, nearest.le_of_ge zero_mem_doubles nonneg, nearest.le_of_le x.mem_doubles le⟩

/-! ## The remainder -/

theorem floor_nonneg (nonneg : 0 ≤ x.toRat) (pos : 0 < width) : 0 ≤ ⌊x.toRat / width⌋ := by
  have : (0 : Rat) < width := by exact_mod_cast pos
  exact Int.floor_nonneg.2 (by positivity)

theorem divisor_ne_zero (pos : 0 < width) (divisor : w.toRat = width) : w.toRat ≠ 0 := by
  rw [divisor]
  exact_mod_cast pos.ne'

/-- Neither operation rounds while the integers up to the product are doubles. -/
theorem quotient_of_product {count : Int} {product quotient : FiniteDouble} {sign sign' : Bool}
    (pos : 0 < width) (nonneg : 0 ≤ count) (small : width * count < 2 ^ 53)
    (multiplied : ofRat sign (width * count : Int) = .finite product)
    (divided : ofRat sign' (product.toRat / width) = .finite quotient) : quotient.toRat = count := by
  have least : 0 ≤ width * count := Int.mul_nonneg (Int.natCast_nonneg _) nonneg
  have exact := (isNearest_ofRat multiplied).eq_of_mem
    (int_mem_doubles (by rwa [abs_of_nonneg least]))
  have some : (width : Rat) ≠ 0 := by exact_mod_cast pos.ne'
  have value : product.toRat / width = count := by
    rw [exact, div_eq_iff some]
    push_cast
    ring
  have nearest := isNearest_ofRat divided
  rw [value] at nearest
  refine nearest.eq_of_mem (int_mem_doubles ?_)
  rw [abs_of_nonneg nonneg]
  nlinarith

section Divisor

variable (nonneg : 0 ≤ x.toRat) (pos : 0 < width) (few : width < 2 ^ 53)
  (divisor : w.toRat = width)
include nonneg pos divisor

include few in
theorem remainder_integer :
    ∃ r, (finite x).remainder (.finite w) = .finite r ∧ r.toRat = restOver x.toRat width := by
  have nonzero := divisor_ne_zero pos divisor
  have floor := floor_nonneg nonneg pos
  have quotient : ¬x.toRat / w.toRat < 0 := by
    rw [not_lt, divisor]
    positivity
  have mem : restOver x.toRat width ∈ doubles := by
    refine FiniteDouble.rest_mem_doubles (by positivity) (restOver_nonneg x.toRat pos) ?_
    refine (restOver_lt x.toRat pos).trans ?_
    exact_mod_cast few
  have left : x.toRat - (x.toRat / w.toRat).floor * w.toRat = restOver x.toRat width := by
    rw [restOver, divisor]
    push_cast
    rw [mul_comm]
    rfl
  rw [remainder, if_neg (mt FiniteDouble.isZero_iff.1 nonzero)]
  dsimp only
  rw [if_neg quotient, left]
  exact ofRat_of_mem x.negative mem

/-- The quotient before it is settled. -/
theorem quotient_integer (rest : r.toRat = restOver x.toRat width) :
    ∃ q, ((finite x).sub (.finite r)).div (.finite w) = .finite q ∧ 0 ≤ q.toRat ∧
      (x.toRat < 2 ^ 53 → q.toRat = ⌊x.toRat / width⌋) := by
  have nonzero := divisor_ne_zero pos divisor
  have floor := floor_nonneg nonneg pos
  have whole : x.toRat - r.toRat = (width * ⌊x.toRat / width⌋ : Int) := by
    rw [rest, restOver, sub_sub_cancel]
  have least : (0 : Rat) ≤ (width * ⌊x.toRat / width⌋ : Int) := by
    exact_mod_cast Int.mul_nonneg (Int.natCast_nonneg _) floor
  have most : ((width * ⌊x.toRat / width⌋ : Int) : Rat) ≤ x.toRat := by
    have := restOver_nonneg x.toRat pos
    rw [← rest] at this
    linarith
  obtain ⟨d, difference, above, -⟩ := ofRat_between (x.negative && !r.negative) least most
  have one : (1 : Rat) ≤ width := by exact_mod_cast pos
  obtain ⟨q, found, sign, -⟩ := ofRat_between (d.negative != w.negative)
    (div_nonneg above (zero_le_one.trans one)) (div_le_self above one)
  refine ⟨q, ?_, sign, fun small => ?_⟩
  · rw [sub_finite, whole, difference, div_finite nonzero, divisor, found]
  · exact quotient_of_product pos floor (by exact_mod_cast most.trans_lt small) difference found

end Divisor

/-- The floor of a double quotient, or one more when the quotient is over a half above it. -/
def settled (q : Double) : Double :=
  if (q.sub q.floor).compare? (nearest false 1 2) = some .gt then q.floor.add (ofInt 1) else q.floor

theorem compare?_zero_half (sign : Bool) :
    (zero sign).compare? (nearest false 1 2) = some .lt := by
  cases sign <;> decide +kernel

theorem settled_finite {q : FiniteDouble} (nonneg : 0 ≤ q.toRat) :
    ∃ h, settled (.finite q) = .finite h ∧ 0 ≤ h.toRat ∧ ∀ n : Int, q.toRat = n → h.toRat = n := by
  obtain ⟨b, floor, below⟩ := ofRat_of_mem q.negative q.floor_mem_doubles
  have floor : (finite q).floor = .finite b := floor
  have least : (0 : Rat) ≤ ⌊q.toRat⌋ := by exact_mod_cast Int.floor_nonneg.2 nonneg
  rw [settled, floor, sub_finite]
  by_cases integer : q.toRat = ⌊q.toRat⌋
  · have none : q.toRat - b.toRat = 0 := by rw [below, ← integer, sub_self]
    rw [none, ofRat_zero, compare?_zero_half, if_neg (by decide)]
    exact ⟨b, rfl, by rwa [below], fun n value => by rw [below, value, Int.floor_intCast]⟩
  · have apart (n : Int) (value : q.toRat = n) : False :=
      integer (by rw [value, Int.floor_intCast])
    split
    · have low : q.exponent < 0 := by
        by_contra whole
        obtain ⟨n, value⟩ := FiniteDouble.int_of_exponent (not_lt.1 whole)
        exact apart n value
      obtain ⟨o, one, value⟩ := ofInt_of_few (n := 1) (by norm_num)
      obtain ⟨h, sum, above⟩ := ofRat_of_mem (b.negative && o.negative)
        (FiniteDouble.floor_add_one_mem_doubles low)
      refine ⟨h, ?_, ?_, fun n value => (apart n value).elim⟩
      · rw [one, add, below, value]
        exact_mod_cast sum
      · rw [above]
        push_cast
        linarith
    · exact ⟨b, rfl, by rwa [below], fun n value => (apart n value).elim⟩

/-- Nothing is repaired when the remainder is not negative and the divisor is positive. -/
theorem floorDivMod_of_nonneg (positive : w.negative = false)
    (rest : (finite x).remainder (.finite w) = .finite r) (nonneg : 0 ≤ r.toRat) :
    (finite x).floorDivMod (.finite w) =
      (let quotient := ((finite x).sub (.finite r)).div (.finite w)
        if quotient.isZero then zero ((finite x).div (.finite w)).isNegative else settled quotient,
        if r.isZero then zero false else .finite r) := by
  have plus : (finite w).isNegative = false := positive
  have empty : (finite r).isZero = r.isZero := rfl
  simp only [floorDivMod, rest, settled, empty, plus]
  cases none : r.isZero with
  | true =>
    simp only [if_true]
    split_ifs <;> rfl
  | false =>
    have sign : (finite r).isNegative = false := FiniteDouble.negative_of_nonneg nonneg none
    simp only [sign, ne_eq, not_true, and_false, if_false, Bool.false_eq_true]
    split_ifs <;> rfl

/-- A remainder that is not negative is given without a sign. -/
theorem exists_unsigned (nonneg : 0 ≤ r.toRat) : ∃ given : FiniteDouble,
    (if r.isZero then zero false else .finite r) = .finite given ∧ given.negative = false ∧
      given.toRat = r.toRat := by
  cases none : r.isZero with
  | true => exact ⟨_, rfl, rfl, by rw [toRat_zero, FiniteDouble.isZero_iff.1 none]⟩
  | false => exact ⟨r, rfl, FiniteDouble.negative_of_nonneg nonneg none, rfl⟩

/-- **Floor division by a positive integer.** The remainder is exact and has no sign; the quotient is
the floor of the exact one, at least while the integers up to the double are doubles. -/
theorem floorDivMod_integer (nonneg : 0 ≤ x.toRat) (pos : 0 < width) (few : width < 2 ^ 53) :
    ∃ h r : FiniteDouble, (finite x).floorDivMod (.ofInt width) = (.finite h, .finite r) ∧
      0 ≤ h.toRat ∧ (x.toRat < 2 ^ 53 → h.toRat = ⌊x.toRat / width⌋) ∧
      r.negative = false ∧ r.toRat = restOver x.toRat width := by
  obtain ⟨w, integer, divisor⟩ := ofInt_of_few (n := width) (by
    rw [abs_of_nonneg (Int.natCast_nonneg _)]
    exact_mod_cast few)
  rw [Int.cast_natCast] at divisor
  obtain ⟨r, rest, left⟩ := remainder_integer nonneg pos few divisor
  obtain ⟨q, quotient, least, exact⟩ := quotient_integer nonneg pos divisor left
  have sign : w.negative = false := FiniteDouble.negative_of_pos (by
    rw [divisor]
    exact_mod_cast pos)
  have remains := restOver_nonneg x.toRat pos
  rw [← left] at remains
  rw [integer, floorDivMod_of_nonneg sign rest remains, quotient]
  obtain ⟨given, shown, positive, same⟩ := exists_unsigned remains
  dsimp only
  rw [shown]
  split
  · next none =>
    have zero_quotient := FiniteDouble.isZero_iff.1 none
    refine ⟨_, given, rfl, (toRat_zero _).ge, fun small => ?_, positive, same.trans left⟩
    rw [toRat_zero, ← exact small, zero_quotient]
  · obtain ⟨h, found, above, integers⟩ := settled_finite least
    rw [found]
    exact ⟨h, given, rfl, above, fun small => integers _ (exact small), positive, same.trans left⟩

end Double

end MediaCommand
