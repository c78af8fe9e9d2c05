import MediaCommand.Number.Decimal
import MediaCommand.Progress.Clock
import Mathlib.Algebra.Order.Field.Power
import Mathlib.Algebra.Order.Field.Rat
import Mathlib.Data.Rat.Floor
import Mathlib.Tactic.FieldSimp
import Mathlib.Tactic.Linarith
import Mathlib.Tactic.NormNum
import Mathlib.Tactic.Positivity
import Mathlib.Tactic.Ring

/-!
# How large a number may be

Two conversions refuse numbers that are too large. An integer is no double from half a step above
the largest double on (`ofInt?_fails_iff`), and a decimal has no text with two places when its
hundredths have more digits than the precision (`cents?_isSome_iff`).
-/

namespace MediaCommand

/-! ## Rounded quotients -/

/-- A quotient is not rounded below an integer that it reaches. -/
theorem le_roundDiv {num den low : Nat} (tie : Tie) (pos : 0 < den) (above : low * den ≤ num) :
    low ≤ roundDiv num den tie := by
  obtain ⟨least, -⟩ := roundDiv_bounds num den tie pos
  generalize roundDiv num den tie = r at least
  have scaled : 2 * low * den ≤ (2 * r + 1) * den := by linarith
  have := Nat.le_of_mul_le_mul_right scaled pos
  omega

/-- A quotient is not rounded above an integer that it does not exceed. -/
theorem roundDiv_le {num den high : Nat} (tie : Tie) (pos : 0 < den) (below : num ≤ high * den) :
    roundDiv num den tie ≤ high := by
  obtain ⟨-, most⟩ := roundDiv_bounds num den tie pos
  generalize roundDiv num den tie = r at most
  have scaled : 2 * r * den ≤ (2 * high + 1) * den := by linarith
  have := Nat.le_of_mul_le_mul_right scaled pos
  omega

theorem roundDiv_of_small {num den : Nat} (tie : Tie) (small : 2 * num < den) :
    roundDiv num den tie = 0 := by
  have quotient : num / den = 0 := Nat.div_eq_of_lt (by omega)
  have rest : num % den = num := Nat.mod_eq_of_lt (by omega)
  simp only [roundDiv, quotient, rest, small, if_true]

/-- A quotient is rounded to an even integer or above from half a unit below it on. -/
theorem even_le_roundDiv_iff {num den top : Nat} (pos : 0 < den) (even : top % 2 = 0) :
    top ≤ roundDiv num den .toEven ↔ 2 * top * den ≤ 2 * num + den := by
  obtain ⟨least, most⟩ := roundDiv_bounds num den .toEven pos
  constructor
  · intro reached
    have := Nat.mul_le_mul_right den reached
    linarith
  · intro reach
    by_contra short
    have next : roundDiv num den .toEven + 1 ≤ top := by omega
    have grown := Nat.mul_le_mul_right den next
    -- Only an exact half is left, and that goes from the odd integer below to the even one.
    have half : 2 * num = (2 * roundDiv num den .toEven + 1) * den := by linarith
    have quotient : num / den = roundDiv num den .toEven :=
      Nat.div_eq_of_lt_le (by linarith) (by linarith)
    have rest : 2 * (num % den) = den := by
      have := Nat.div_add_mod num den
      rw [quotient] at this
      linarith
    have same : top * den = (roundDiv num den .toEven + 1) * den := by linarith
    have same := Nat.mul_right_cancel pos same
    have up : roundDiv num den .toEven = num / den + num / den % 2 := by
      rw [roundDiv]
      simp only [rest, Nat.lt_irrefl, if_false]
    omega

/-- Rounding halves up is adding a half and dropping the fraction. -/
theorem roundDiv_awayFromZero {num den : Nat} (pos : 0 < den) :
    roundDiv num den .awayFromZero = (2 * num + den) / (2 * den) := by
  have rest := Nat.mod_lt num pos
  have parts : 2 * num + den = 2 * (num % den) + den + 2 * den * (num / den) := by
    have := Nat.div_add_mod num den
    nlinarith
  rw [parts, Nat.add_mul_div_left _ _ (by omega), roundDiv]
  by_cases low : 2 * (num % den) < den
  · have none : (2 * (num % den) + den) / (2 * den) = 0 := Nat.div_eq_of_lt (by omega)
    rw [if_pos low, none, Nat.zero_add]
  · have half : (2 * (num % den) + den) / (2 * den) = 1 := by
      rw [Nat.div_eq_iff (by omega)]
      omega
    rw [if_neg low, half, Nat.add_comm]
    split <;> rfl

/-! ## Integers as doubles -/

namespace Double

/-- Half a step above the largest number of 53 bits that has its last place at `top + 1`. -/
def limit (top : Nat) : Nat := (2 ^ 54 - 1) * 2 ^ top

/-- Half a step above the largest double: `2 ^ 1024 - 2 ^ 970`. -/
def overflow : Nat := limit 970

theorem binaryPower_one {n : Nat} (pos : 0 < n) : binaryPower n 1 = n.log2 := by
  have low := Nat.log2_self_le pos.ne'
  have one : (1 : Nat).log2 = 0 := by decide
  simp [binaryPower, one, low]

theorem ofParts_isFinite {significand : Nat} {exponent : Int} (negative : Bool)
    (high : 2 ^ 52 ≤ significand) (low : significand < 2 ^ 53) (least : -1074 ≤ exponent)
    (most : exponent ≤ 971) : ∃ x, ofParts negative significand exponent = .finite x :=
  ⟨_, dif_pos ⟨low, least, most, .inl high⟩⟩

theorem ofParts_isInfinite {significand : Nat} {exponent : Int} (negative : Bool)
    (beyond : 971 < exponent) : ofParts negative significand exponent = .infinite negative :=
  dif_neg fun within => absurd within.2.2.1 (by omega)

/-- An integer with more than 53 bits keeps its leading 53, rounded. -/
theorem nearest_long (negative : Bool) {n : Nat} (long : 52 < n.log2) :
    nearest negative n 1 =
      let step := n.log2 - 52
      let significand := roundDiv n (2 ^ step) .toEven
      if significand = 2 ^ 53 then ofParts negative (2 ^ 52) (step + 1)
      else ofParts negative significand step := by
  have pos : 0 < n := Nat.pos_of_ne_zero fun zero => by simp [zero] at long
  have exponent : max (-1074) (binaryPower n 1 - 52) = ((n.log2 - 52 : Nat) : Int) := by
    rw [binaryPower_one pos]
    omega
  have up : (-((n.log2 - 52 : Nat) : Int)).toNat = 0 := by omega
  rw [nearest, if_neg pos.ne', exponent]
  simp only [up, Int.toNat_natCast, Nat.pow_zero, Nat.mul_one, Nat.one_mul]

/-- A shorter integer is a double itself. -/
theorem nearest_short (negative : Bool) {n : Nat} (short : n.log2 ≤ 52) :
    ∃ x, nearest negative n 1 = .finite x := by
  by_cases zero : n = 0
  · exact ⟨_, if_pos zero⟩
  have exponent : max (-1074) (binaryPower n 1 - 52) = -((52 - n.log2 : Nat) : Int) := by
    rw [binaryPower_one (Nat.pos_of_ne_zero zero)]
    omega
  obtain ⟨low, high⟩ := (Nat.log2_eq_iff zero).1 rfl
  have whole : roundDiv (n * 2 ^ (52 - n.log2)) 1 .toEven = n * 2 ^ (52 - n.log2) := by
    rw [roundDiv_of_dvd _ Nat.one_pos (Nat.mod_one _), Nat.div_one]
  have scale (k : Nat) : 2 ^ k * 2 ^ (52 - n.log2) = 2 ^ (k + (52 - n.log2)) :=
    (Nat.pow_add ..).symm
  have least : 2 ^ 52 ≤ n * 2 ^ (52 - n.log2) := by
    have := Nat.mul_le_mul_right (2 ^ (52 - n.log2)) low
    rwa [scale, show n.log2 + (52 - n.log2) = 52 by omega] at this
  have most : n * 2 ^ (52 - n.log2) < 2 ^ 53 := by
    have := Nat.mul_lt_mul_of_pos_right high (Nat.two_pow_pos (52 - n.log2))
    rwa [scale, show n.log2 + 1 + (52 - n.log2) = 53 by omega] at this
  rw [nearest, if_neg zero, exponent]
  simp only [Int.neg_neg, Int.toNat_natCast, Int.toNat_neg_natCast, Nat.pow_zero, Nat.mul_one,
    whole, most.ne, if_false]
  exact ofParts_isFinite negative least most (by omega) (by omega)

/-- Rounding to 53 bits carries into the next power of two from half a step below it on. -/
theorem roundDiv_carry {n half : Nat} (pos : 0 < half) (high : n < 2 ^ 53 * (2 * half)) :
    roundDiv n (2 * half) .toEven = 2 ^ 53 ↔ (2 ^ 54 - 1) * half ≤ n := by
  have most := roundDiv_le .toEven (by omega) high.le
  have carry : roundDiv n (2 * half) .toEven = 2 ^ 53 ↔ 2 ^ 53 ≤ roundDiv n (2 * half) .toEven :=
    ⟨fun carried => carried.ge, fun reached => Nat.le_antisymm most reached⟩
  rw [carry, even_le_roundDiv_iff (by omega) (by decide)]
  omega

/-- The sizes of an integer of a given number of bits, in units of its last place. -/
theorem between_of_log2 {n step : Nat} (bits : n.log2 = step + 52) :
    2 ^ 52 * 2 ^ step ≤ n ∧ n < 2 ^ 53 * 2 ^ step := by
  have nonzero : n ≠ 0 := fun zero => by simp [zero] at bits
  obtain ⟨low, high⟩ := (Nat.log2_eq_iff nonzero).1 bits
  rw [← Nat.pow_add, ← Nat.pow_add, Nat.add_comm 52, Nat.add_comm 53]
  exact ⟨low, high⟩

theorem le_limit (top : Nat) : 2 ^ 54 - 1 ≤ limit top :=
  Nat.le_mul_of_pos_right _ (Nat.two_pow_pos top)

theorem lt_limit_iff {n step top : Nat} (bits : n.log2 = step + 52) :
    n < limit top ↔ step ≤ top ∨ step = top + 1 ∧ n < limit top := by
  obtain ⟨low, high⟩ := between_of_log2 bits
  have size : limit top = (2 ^ 54 - 1) * 2 ^ top := rfl
  rcases Nat.lt_trichotomy step (top + 1) with less | same | more
  · have grow : 2 ^ step ≤ 2 ^ top := Nat.pow_le_pow_right (by omega) (by omega)
    refine iff_of_true ?_ (.inl (by omega))
    omega
  · simp [same]
  · have grow : 2 ^ (top + 2) ≤ 2 ^ step := Nat.pow_le_pow_right (by omega) (by omega)
    rw [Nat.pow_add] at grow
    refine iff_of_false ?_ (fun within => ?_)
    · omega
    · omega

theorem carries_iff {n step top : Nat} (bits : n.log2 = step + 52) (same : step = top + 1) :
    roundDiv n (2 ^ step) .toEven = 2 ^ 53 ↔ limit top ≤ n := by
  obtain ⟨-, high⟩ := between_of_log2 bits
  have halves : 2 ^ step = 2 * 2 ^ top := by rw [same, Nat.pow_succ']
  rw [halves] at high ⊢
  exact roundDiv_carry (Nat.two_pow_pos top) high

/-- A long integer is a finite double when its last place is, and rounding does not carry. -/
theorem nearest_long_cases (negative : Bool) {n step : Nat} (bits : n.log2 = step + 52)
    (long : 0 < step) :
    n < overflow ∧ (∃ x, nearest negative n 1 = .finite x) ∨
      overflow ≤ n ∧ nearest negative n 1 = .infinite negative := by
  obtain ⟨low, high⟩ := between_of_log2 bits
  have least := le_roundDiv .toEven (Nat.two_pow_pos step) low
  have most := roundDiv_le .toEven (Nat.two_pow_pos step) high.le
  have within : n < overflow ↔ step ≤ 970 ∨ step = 971 ∧ n < overflow := lt_limit_iff bits
  have rest : n.log2 - 52 = step := by omega
  rw [nearest_long negative (by omega), rest]
  dsimp only
  rcases Nat.lt_trichotomy step 971 with less | same | more
  · refine .inl ⟨by omega, ?_⟩
    split
    · exact ofParts_isFinite negative (Nat.le_refl _) (by decide) (by omega) (by omega)
    · exact ofParts_isFinite negative least (by omega) (by omega) (by omega)
  · have carry := carries_iff bits same
    by_cases beyond : overflow ≤ n
    · refine .inr ⟨beyond, ?_⟩
      rw [if_pos (carry.2 beyond), ofParts_isInfinite negative (by omega)]
    · have stays : roundDiv n (2 ^ step) .toEven ≠ 2 ^ 53 := fun carried => beyond (carry.1 carried)
      refine .inl ⟨by omega, ?_⟩
      rw [if_neg stays]
      exact ofParts_isFinite negative least (by omega) (by omega) (by omega)
  · refine .inr ⟨by omega, ?_⟩
    rw [ofParts_isInfinite negative (by omega), ofParts_isInfinite negative (by omega), ite_self]

/-- An integer is a finite double up to half a step above the largest one. -/
theorem ofInt_cases (n : Int) :
    n.natAbs < overflow ∧ (∃ x, ofInt n = .finite x) ∨
      overflow ≤ n.natAbs ∧ ofInt n = .infinite (decide (n < 0)) := by
  rw [ofInt]
  generalize n.natAbs = m
  generalize decide (n < 0) = negative
  by_cases long : 52 < m.log2
  · have bits : m.log2 = m.log2 - 52 + 52 := by omega
    exact nearest_long_cases negative bits (by omega)
  · have small : m < 2 ^ (m.log2 + 1) := Nat.lt_log2_self
    have grow : 2 ^ (m.log2 + 1) ≤ 2 ^ 53 := Nat.pow_le_pow_right (by omega) (by omega)
    have most : 2 ^ 54 - 1 ≤ overflow := le_limit 970
    exact .inl ⟨by omega, nearest_short negative (by omega)⟩

/-- Only integers beyond the doubles are refused. -/
theorem ofInt?_fails_iff {n : Int} {failure : Failure} :
    ofInt? n = .error failure ↔ failure = .integerTooLarge ∧ overflow ≤ n.natAbs := by
  rcases ofInt_cases n with ⟨within, x, value⟩ | ⟨beyond, value⟩
  · simp only [ofInt?, value, reduceCtorEq, false_iff]
    omega
  · simp only [ofInt?, value, beyond, and_true, Except.error.injEq]
    exact eq_comm

end Double

/-! ## Decimals with two places -/

theorem digitCount_le_iff {n k : Nat} (pos : 0 < k) : digitCount n ≤ k ↔ n < 10 ^ k :=
  Nat.length_toDigits_le_iff (by decide) pos

/-- The integers that can be written and read lie below a power of ten. -/
theorem isConvertible_iff {n : Int} : IsConvertible n ↔ n.natAbs < 10 ^ digitLimit :=
  digitCount_le_iff (by decide)

theorem ten_pow_le {n : Nat} (nonzero : n ≠ 0) : 10 ^ (digitCount n - 1) ≤ n := by
  rcases Nat.eq_zero_or_pos (digitCount n - 1) with one | more
  · rw [one, Nat.pow_zero]
    omega
  · rw [← Nat.not_lt, ← digitCount_le_iff more]
    omega

theorem zpow_eq_div (base : Rat) (e : Int) : base ^ e = base ^ e.toNat / base ^ (-e).toNat := by
  rcases Int.le_total 0 e with up | down
  · obtain ⟨n, rfl⟩ := Int.eq_ofNat_of_zero_le up
    simp
  · obtain ⟨n, same⟩ := Int.eq_ofNat_of_zero_le (Int.neg_nonneg_of_nonpos down)
    have same : e = -n := by omega
    simp [same]

namespace Scaled

/-- The units of a number are the rounded quotient of two integers. -/
theorem units_eq_roundDiv (x : Scaled) (places : Nat) (tie : Tie) :
    x.units places tie = roundDiv (x.coefficient * 10 ^ (x.exponent + places).toNat)
      (10 ^ (-(x.exponent + places)).toNat) tie := by
  unfold units
  split
  · next up same =>
    have none : (-Int.ofNat up).toNat = 0 := Int.toNat_neg_natCast up
    rw [same, none, Nat.pow_zero, roundDiv_of_dvd tie Nat.one_pos (Nat.mod_one _), Nat.div_one]
    rfl
  · next down same =>
    rw [same]
    change _ = roundDiv (x.coefficient * 10 ^ 0) (10 ^ (down + 1)) tie
    rw [Nat.pow_zero, Nat.mul_one]
    split
    · next few =>
      -- A number below a tenth of a unit is rounded to none.
      have pos : 0 < down := Nat.lt_of_lt_of_le Nat.length_toDigits_pos few
      have small : x.coefficient < 10 ^ down := (digitCount_le_iff pos).1 few
      refine (roundDiv_of_small tie ?_).symm
      rw [Nat.pow_succ]
      omega
    · rfl

theorem abs_toRat (x : Scaled) : |x.toRat| = x.coefficient * (10 : Rat) ^ x.exponent := by
  have power : (10 : Rat) ^ x.exponent = 10 ^ x.exponent.toNat / 10 ^ (-x.exponent).toNat :=
    zpow_eq_div 10 x.exponent
  have value : mkRat (x.coefficient * 10 ^ x.exponent.toNat) (10 ^ (-x.exponent).toNat) =
      x.coefficient * (10 : Rat) ^ x.exponent := by
    rw [Rat.mkRat_eq_div, power]
    push_cast
    ring
  have magnitude : 0 ≤ (x.coefficient : Rat) * (10 : Rat) ^ x.exponent := by positivity
  unfold toRat
  dsimp only
  rw [value]
  split
  · rw [abs_neg, abs_of_nonneg magnitude]
  · exact abs_of_nonneg magnitude

theorem toRat_eq_abs (x : Scaled) : x.toRat = if x.negative then -|x.toRat| else |x.toRat| := by
  rw [abs_toRat, toRat, Rat.mkRat_eq_div, zpow_eq_div]
  push_cast
  rw [mul_div_assoc]

/-- The hundredths of a number, an exact half rounded up. -/
theorem units_two (x : Scaled) :
    (x.units 2 .awayFromZero : Int) = ⌊100 * |x.toRat| + 1 / 2⌋ := by
  have units := x.units_eq_roundDiv 2 .awayFromZero
  have power := zpow_eq_div 10 (x.exponent + 2)
  have pos : 0 < 10 ^ (-(x.exponent + 2)).toNat := Nat.pow_pos (by decide)
  rw [Nat.cast_ofNat] at units
  rw [zpow_add₀ (by norm_num)] at power
  generalize (x.exponent + 2).toNat = up at units power
  generalize (-(x.exponent + 2)).toNat = down at units power pos
  have value : ((2 * (x.coefficient * 10 ^ up) + 10 ^ down : Nat) : Rat) / (2 * 10 ^ down : Nat) =
      100 * |x.toRat| + 1 / 2 := by
    have grow : (10 : Rat) ^ up = 10 ^ x.exponent * 10 ^ (2 : Int) * 10 ^ down := by
      rw [power]
      field_simp
    rw [abs_toRat]
    push_cast
    rw [grow]
    field_simp
    ring
  rw [units, roundDiv_awayFromZero pos, ← value, Rat.floor_natCast_div_natCast]
  rfl

end Scaled

namespace Decimal

/-- More digits than the precision in front of the third place are no hundredths within it. -/
theorem units_of_long {x : Scaled} (nonzero : x.coefficient ≠ 0)
    (long : (precision : Int) < digitCount x.coefficient + (x.exponent + 2)) :
    10 ^ precision ≤ x.units 2 .awayFromZero := by
  have leading := ten_pow_le nonzero
  rw [Scaled.units_eq_roundDiv]
  refine le_roundDiv .awayFromZero (Nat.pow_pos (by decide)) ?_
  calc 10 ^ precision * 10 ^ (-(x.exponent + 2)).toNat
      = 10 ^ (precision + (-(x.exponent + 2)).toNat) := (Nat.pow_add ..).symm
    _ ≤ 10 ^ (digitCount x.coefficient - 1 + (x.exponent + 2).toNat) :=
        Nat.pow_le_pow_right (by decide) (by omega)
    _ = 10 ^ (digitCount x.coefficient - 1) * 10 ^ (x.exponent + 2).toNat := Nat.pow_add ..
    _ ≤ x.coefficient * 10 ^ (x.exponent + 2).toNat := Nat.mul_le_mul_right _ leading

/-- The hundredths of a number are those that have at most as many digits as the precision. -/
theorem hundredths?_isSome (x : Scaled) (nonzero : x.coefficient ≠ 0) :
    (hundredths? x).isSome ↔ x.units 2 .awayFromZero < 10 ^ precision := by
  rw [hundredths?, if_neg nonzero]
  split
  · next long => simpa using units_of_long nonzero long
  · rw [← digitCount_le_iff (by decide), ← Nat.not_lt]
    dsimp only
    split
    · next many => simp [many]
    · next few => simp [few]

/-- A number has hundredths within the precision when it rounds to less than `10 ^ 26`. -/
theorem hundredths?_isSome_iff (x : Scaled) :
    (hundredths? x).isSome ↔ |x.toRat| < 10 ^ 26 - 1 / 200 := by
  by_cases zero : x.coefficient = 0
  · rw [hundredths?, if_pos zero, Scaled.abs_toRat, zero]
    norm_num
  rw [hundredths?_isSome x zero, ← Int.ofNat_lt, Scaled.units_two, Int.floor_lt]
  push_cast [precision]
  constructor <;> intro less <;> linarith

/-- Whether a decimal can be written with two places. -/
def IsWritable : Decimal → Prop
  | .finite x => |x.toRat| < 10 ^ 26 - 1 / 200
  | .infinite _ => False
  | .nan _ signaling _ => signaling = false

theorem cents?_isSome_iff (d : Decimal) : d.cents?.isSome ↔ d.IsWritable := by
  cases d with
  | finite x =>
    rw [cents?, Option.isSome_map]
    exact hundredths?_isSome_iff x
  | infinite negative => simp [cents?, IsWritable]
  | nan negative signaling payload => cases signaling <;> simp [cents?, IsWritable]

end Decimal

end MediaCommand
