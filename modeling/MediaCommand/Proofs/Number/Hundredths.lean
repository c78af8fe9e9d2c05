import MediaCommand.Catalog.Fixed
import MediaCommand.Proofs.Number.Numeral
import MediaCommand.Value.Normal
import Mathlib.Algebra.Order.Round

/-!
# Decimals with two places

The text of a decimal shows its nearest hundredth: exactly two fractional digits, an exact half
rounded away from zero, the sign of the decimal even where all digits are zeros
(`normalize_finite_decimal`). Texts of this shape are `PlainHundredths`, which read back as the
number they show. Only from `10 ^ 26` on is there no text, and what counts is the rounded number.
-/

namespace MediaCommand

/-! ## The nearest hundredth -/

/-- `r` is a number of hundredths, none is nearer to `q`, and none as near is farther from zero. -/
structure IsNearestHundredth (q r : Rat) : Prop where
  whole : ∃ n : Int, r = n / 100
  nearest : ∀ m : Int, |q - r| ≤ |q - m / 100|
  away : ∀ m : Int, |q - m / 100| = |q - r| → |(m : Rat) / 100| ≤ |r|

namespace IsNearestHundredth

variable {q r s : Rat}

/-- There is no other: equally near numbers are equally far from zero. -/
theorem unique (one : IsNearestHundredth q r) (other : IsNearestHundredth q s) : r = s := by
  obtain ⟨m, rfl⟩ := one.whole
  obtain ⟨n, rfl⟩ := other.whole
  have near : |q - m / 100| = |q - n / 100| := le_antisymm (one.nearest n) (other.nearest m)
  have size : |(m : Rat) / 100| = |(n : Rat) / 100| :=
    le_antisymm (other.away m near) (one.away n near.symm)
  rcases abs_eq_abs.1 size with same | opposite
  · exact same
  · rw [opposite] at near
    -- Opposite numbers are equally near to zero alone, and zero is nearest to itself.
    have middle : q * (n / 100) = 0 := by
      have squares := (sq_eq_sq_iff_abs_eq_abs _ _).2 near
      linarith
    rcases mul_eq_zero.1 middle with zero | zero
    · have none := other.nearest 0
      rw [zero] at none
      have : (n : Rat) / 100 = 0 := by simpa using none
      rw [opposite, this, neg_zero]
    · rw [opposite, zero, neg_zero]

/-- Rounding is the same on both sides of zero. -/
theorem neg (nearest : IsNearestHundredth q r) : IsNearestHundredth (-q) (-r) := by
  have mirror (s : Rat) : |-q - s| = |q - -s| := by
    rw [← abs_neg]
    congr 1
    ring
  obtain ⟨⟨n, rfl⟩, least, farthest⟩ := nearest
  have turn (m : Int) : -((m : Rat) / 100) = ((-m : Int) : Rat) / 100 := by push_cast; ring
  refine ⟨⟨-n, turn n⟩, fun m => ?_, fun m tie => ?_⟩
  · rw [mirror, mirror, neg_neg, turn]
    exact least (-m)
  · rw [mirror, mirror, neg_neg, turn] at tie
    have := farthest (-m) tie
    rwa [← turn, abs_neg, ← abs_neg ((n : Rat) / 100)] at this

/-- On this side of zero, rounding a half away from zero is rounding it up. -/
theorem of_nonneg (nonneg : 0 ≤ q) : IsNearestHundredth q (round (100 * q) / 100) := by
  have scale (m : Int) : |q - m / 100| = |100 * q - m| / 100 := by
    rw [eq_div_iff (by norm_num), ← abs_of_pos (show (0 : Rat) < 100 by norm_num), ← abs_mul,
      abs_of_pos (show (0 : Rat) < 100 by norm_num)]
    congr 1
    ring
  refine ⟨⟨_, rfl⟩, fun m => ?_, fun m tie => ?_⟩
  · rw [scale, scale]
    exact div_le_div_of_nonneg_right (round_le _ m) (by norm_num)
  · rw [scale, scale, div_left_inj' (by norm_num)] at tie
    rw [round_eq] at tie ⊢
    have below := Int.floor_le (100 * q + 1 / 2)
    have above := Int.lt_floor_add_one (100 * q + 1 / 2)
    have largest : (m : Rat) ≤ 100 * q + 1 / 2 → m ≤ ⌊100 * q + 1 / 2⌋ := Int.le_floor.2
    generalize ⌊100 * q + 1 / 2⌋ = n at below above tie largest
    have positive : (0 : Rat) ≤ n := by
      have : (-1 : Rat) < n := by linarith
      exact_mod_cast (show -1 < n by exact_mod_cast this)
    rw [abs_div, abs_div, abs_of_nonneg positive]
    refine div_le_div_of_nonneg_right ?_ (by norm_num)
    rcases abs_eq_abs.1 tie with same | opposite
    · rw [show (m : Rat) = n by linarith, abs_of_nonneg positive]
    · have most : (m : Rat) ≤ n := by exact_mod_cast largest (by linarith)
      exact abs_le.2 ⟨by linarith, most⟩

end IsNearestHundredth

/-- A number rounded to hundredths, an exact half away from zero. -/
def nearestHundredth (q : Rat) : Rat :=
  if 0 ≤ q then round (100 * q) / 100 else -(round (100 * -q) / 100)

theorem isNearestHundredth_iff {q r : Rat} : IsNearestHundredth q r ↔ r = nearestHundredth q := by
  have found : IsNearestHundredth q (nearestHundredth q) := by
    unfold nearestHundredth
    split
    · next nonneg => exact .of_nonneg nonneg
    · next negative =>
      have nonneg : 0 ≤ -q := by linarith
      simpa using (IsNearestHundredth.of_nonneg nonneg).neg
  exact ⟨fun nearest => nearest.unique found, fun same => same ▸ found⟩

theorem nearestHundredth_of_nonneg {q : Rat} (nonneg : 0 ≤ q) :
    nearestHundredth q = ⌊100 * q + 1 / 2⌋ / 100 := by
  rw [nearestHundredth, if_pos nonneg, round_eq]

theorem nearestHundredth_neg (q : Rat) : nearestHundredth (-q) = -nearestHundredth q :=
  (isNearestHundredth_iff.1 (isNearestHundredth_iff.2 rfl).neg).symm

theorem abs_nearestHundredth (q : Rat) : |nearestHundredth q| = ⌊100 * |q| + 1 / 2⌋ / 100 := by
  have size (r : Rat) (nonneg : 0 ≤ r) : |nearestHundredth r| = ⌊100 * r + 1 / 2⌋ / 100 := by
    have : 0 ≤ ⌊100 * r + 1 / 2⌋ := Int.floor_nonneg.2 (by linarith)
    rw [nearestHundredth_of_nonneg nonneg]
    exact abs_of_nonneg (by positivity)
  rcases abs_choice q with same | opposite
  · rw [← size |q| (abs_nonneg q), same]
  · rw [← size |q| (abs_nonneg q), opposite, nearestHundredth_neg, abs_neg]

/-- Rounding keeps the order. -/
theorem nearestHundredth_mono : Monotone nearestHundredth := by
  have grow {q r : Rat} (nonneg : 0 ≤ q) (le : q ≤ r) : nearestHundredth q ≤ nearestHundredth r := by
    rw [nearestHundredth_of_nonneg nonneg, nearestHundredth_of_nonneg (nonneg.trans le)]
    have : (⌊100 * q + 1 / 2⌋ : Rat) ≤ ⌊100 * r + 1 / 2⌋ :=
      Int.cast_le.2 (Int.floor_le_floor (by linarith))
    linarith
  have zero : nearestHundredth 0 = 0 := by
    have := nearestHundredth_neg 0
    rw [neg_zero] at this
    linarith
  have negate {q r : Rat} (nonpos : r ≤ 0) (le : q ≤ r) :
      nearestHundredth q ≤ nearestHundredth r := by
    have := grow (neg_nonneg.2 nonpos) (neg_le_neg le)
    rwa [nearestHundredth_neg, nearestHundredth_neg, neg_le_neg_iff] at this
  intro q r le
  rcases le_total 0 q, le_total 0 r with ⟨nonneg | nonpos, later | earlier⟩
  · exact grow nonneg le
  · exact grow nonneg le
  · exact (negate le_rfl nonpos).trans (grow le_rfl later)
  · exact negate earlier le

/-! ## Plain texts -/

/-- The parts of a text with two fractional digits: a sign or none, and digits in front of the point
that do not begin with a zero unless it is the only one. -/
structure PlainHundredths where
  negative : Bool
  whole : List Char
  fraction : List Char
  digits : ∀ c ∈ whole ++ fraction, isAsciiDigit c = true
  whole_ne_nil : whole ≠ []
  leading : whole.head? = some '0' → whole = ['0']
  length_fraction : fraction.length = 2

namespace PlainHundredths

/-- The text itself; it has no exponent. -/
def text (plain : PlainHundredths) : String :=
  String.ofList (signed plain.negative (plain.whole ++ '.' :: plain.fraction))

/-- The number that the digits make. -/
def number (plain : PlainHundredths) : Scaled :=
  ⟨plain.negative, digitsValue (plain.whole ++ plain.fraction), -2⟩

/-- The text of a number of hundredths. -/
def ofUnits (negative : Bool) (units : Nat) : PlainHundredths where
  negative := negative
  whole := decimalDigits (units / 100)
  fraction := paddedDigits 2 (units % 100)
  digits := by
    intro c mem
    simp only [paddedDigits, List.mem_append, List.mem_replicate] at mem
    rcases mem with mem | ⟨-, rfl⟩ | mem
    · exact isAsciiDigit_of_mem_decimalDigits mem
    · decide
    · exact isAsciiDigit_of_mem_decimalDigits mem
  whole_ne_nil := Nat.toDigits_ne_nil
  leading := by
    intro zero
    rcases Nat.eq_zero_or_pos (units / 100) with none | some
    · rw [none]
      rfl
    · exact absurd zero (head?_decimalDigits some)
  length_fraction := length_paddedDigits (by decide) (Nat.mod_lt _ (by decide))

theorem number_ofUnits (negative : Bool) (units : Nat) :
    (ofUnits negative units).number = ⟨negative, units, -2⟩ := by
  have value : digitsValue (decimalDigits (units / 100) ++ paddedDigits 2 (units % 100)) = units := by
    rw [digitsValue_append_padded _ (by decide) (Nat.mod_lt _ (by decide)), digitsValue_decimalDigits]
    exact Nat.div_add_mod units 100
  simp only [number, ofUnits, value]

/-- The parts as those of any plain numeral. -/
def toPlain (plain : PlainHundredths) : PlainNumeral :=
  ⟨plain.negative, plain.whole, plain.fraction, plain.digits, plain.whole_ne_nil⟩

theorem text_toPlain (plain : PlainHundredths) : plain.toPlain.text = plain.text := by
  have some : plain.fraction ≠ [] := List.ne_nil_of_length_pos (by rw [plain.length_fraction]; decide)
  rw [PlainNumeral.text, PlainNumeral.characters_of_fraction some]
  rfl

/-- The text reads as its number, digit by digit. -/
theorem decimal?_text (plain : PlainHundredths) :
    decimal? plain.text.toList = some (.finite plain.number) := by
  rw [← plain.text_toPlain, PlainNumeral.decimal?_text, PlainNumeral.number, toPlain,
    plain.length_fraction]
  rfl

end PlainHundredths

/-! ## Decimals -/

namespace Scaled

/-- The hundredths of a number, under its sign, are the number rounded. -/
theorem toRat_units_two (x : Scaled) :
    (⟨x.negative, x.units 2 .awayFromZero, -2⟩ : Scaled).toRat = nearestHundredth x.toRat := by
  have shown : |(⟨x.negative, x.units 2 .awayFromZero, -2⟩ : Scaled).toRat| =
      nearestHundredth |x.toRat| := by
    rw [nearestHundredth_of_nonneg (abs_nonneg _), ← units_two, abs_toRat, zpow_neg, div_eq_mul_inv]
    norm_num
  rw [toRat_eq_abs, shown]
  conv_rhs => rw [toRat_eq_abs]
  split
  · rw [nearestHundredth_neg]
  · rfl

end Scaled

namespace Decimal

theorem hundredths?_eq (x : Scaled) :
    hundredths? x = if |nearestHundredth x.toRat| < 10 ^ 26 then some (x.units 2 .awayFromZero)
      else none := by
  have size : |nearestHundredth x.toRat| < 10 ^ 26 ↔ x.units 2 .awayFromZero < 10 ^ precision := by
    rw [abs_nearestHundredth, ← Scaled.units_two, ← Int.ofNat_lt, ← @Int.cast_lt Rat]
    push_cast [precision]
    constructor <;> intro less <;> linarith
  by_cases zero : x.coefficient = 0
  · have none : x.units 2 .awayFromZero = 0 := by
      have := x.units_two
      rw [Scaled.abs_toRat, zero] at this
      norm_num at this
      exact this
    rw [hundredths?, if_pos zero, if_pos (size.2 (by rw [none]; decide)), none]
  · have fits := hundredths?_isSome x zero
    rw [← size] at fits
    split
    · next small =>
      obtain ⟨units, found⟩ := Option.isSome_iff_exists.1 (fits.2 small)
      rw [found]
      rw [hundredths?, if_neg zero] at found
      split at found
      · cases found
      · dsimp only at found
        split at found
        · cases found
        · rw [← found]
    · next large => simpa using mt fits.1 large

end Decimal

/-- The number that a text shows when it is read as a decimal. -/
def shownNumber? (text : String) : Option Rat :=
  match decimal? text.toList with
  | some (.finite x) => some x.toRat
  | _ => none

theorem PlainHundredths.shownNumber?_text (plain : PlainHundredths) :
    shownNumber? plain.text = some plain.number.toRat := by
  rw [shownNumber?, plain.decimal?_text]

section Writing

variable (x : Scaled) (tokens : Tokens)

/-- A decimal that rounds to less than `10 ^ 26` is written as its hundredths. -/
theorem normalize_of_small (small : |nearestHundredth x.toRat| < 10 ^ 26) :
    normalize (.decimal (.finite x)) tokens =
      .ok (some (PlainHundredths.ofUnits x.negative (x.units 2 .awayFromZero)).text) tokens := by
  rw [normalize, Decimal.cents?, Decimal.hundredths?_eq, if_pos small]
  rfl

theorem normalize_of_large (large : 10 ^ 26 ≤ |nearestHundredth x.toRat|) :
    normalize (.decimal (.finite x)) tokens = .error .decimalInvalid tokens := by
  rw [normalize, Decimal.cents?, Decimal.hundredths?_eq, if_neg (not_lt.2 large)]
  rfl

/-- The text of a decimal shows the nearest hundredth. -/
theorem shownNumber?_of_normalize {text : String}
    (written : normalize (.decimal (.finite x)) tokens = .ok (some text) tokens) :
    shownNumber? text = some (nearestHundredth x.toRat) := by
  rcases lt_or_ge |nearestHundredth x.toRat| (10 ^ 26) with small | large
  · rw [normalize_of_small x tokens small] at written
    cases written
    rw [PlainHundredths.shownNumber?_text, PlainHundredths.number_ofUnits, Scaled.toRat_units_two]
  · rw [normalize_of_large x tokens large] at written
    cases written

/-- The sign of a decimal stands in front of the text of its magnitude. -/
theorem normalize_negative :
    normalize (.decimal (.finite { x with negative := true })) tokens =
      (Option.map ("-" ++ ·) <$>
        normalize (.decimal (.finite { x with negative := false }))) tokens := by
  have same : Decimal.hundredths? { x with negative := true } =
      Decimal.hundredths? { x with negative := false } := rfl
  rw [normalize, normalize, Decimal.cents?, Decimal.cents?, same]
  cases Decimal.hundredths? { x with negative := false } with
  | none => rfl
  | some units =>
    have front (digits : List Char) :
        String.ofList ('-' :: digits) = "-" ++ String.ofList digits := by
      rw [← String.toList_inj]
      simp
    exact congrArg (fun text => EStateM.Result.ok (some text) tokens) (front _)

end Writing

/-- **Decimals are rounded exactly.** Let `r` be the nearest hundredth of a finite decimal `x`. Below
`10 ^ 26` the decimal is written with exactly two fractional digits, no exponent and no superfluous
zero, with a minus sign exactly when `x` has one, and the text shows `r`; from there on it has no
text. A minus sign stands in front of the text of the magnitude, and a greater decimal `y` does not
show less. -/
theorem normalize_finite_decimal (x y : Scaled) (tokens : Tokens) :
    (|nearestHundredth x.toRat| < 10 ^ 26 → ∃ plain : PlainHundredths,
      normalize (.decimal (.finite x)) tokens = .ok (some plain.text) tokens ∧
      plain.negative = x.negative ∧
      shownNumber? plain.text = some (nearestHundredth x.toRat)) ∧
    (10 ^ 26 ≤ |nearestHundredth x.toRat| →
      normalize (.decimal (.finite x)) tokens = .error .decimalInvalid tokens) ∧
    normalize (.decimal (.finite { x with negative := true })) tokens =
      (Option.map ("-" ++ ·) <$>
        normalize (.decimal (.finite { x with negative := false }))) tokens ∧
    (∀ text other p q, normalize (.decimal (.finite x)) tokens = .ok (some text) tokens →
      normalize (.decimal (.finite y)) tokens = .ok (some other) tokens →
      shownNumber? text = some p → shownNumber? other = some q → x.toRat ≤ y.toRat → p ≤ q) := by
  refine ⟨fun small => ?_, normalize_of_large x tokens, normalize_negative x tokens, ?_⟩
  · have written := normalize_of_small x tokens small
    exact ⟨_, written, rfl, shownNumber?_of_normalize x tokens written⟩
  · intro text other p q first second low high le
    rw [shownNumber?_of_normalize x tokens first, Option.some_inj] at low
    rw [shownNumber?_of_normalize y tokens second, Option.some_inj] at high
    rw [← low, ← high]
    exact nearestHundredth_mono le

/-- A number whose rounding carries is written, and the one whose rounding reaches the limit not. -/
theorem normalize_carrying_decimals :
    |nearestHundredth (⟨false, 9995, -3⟩ : Scaled).toRat| < 10 ^ 26 ∧
    (∃ plain : PlainHundredths,
      normalize (.decimal (.finite ⟨false, 9995, -3⟩)) .initial = .ok (some plain.text) .initial ∧
      plain.negative = false ∧ shownNumber? plain.text = some 10) ∧
    normalize (.decimal (.finite ⟨true, 99999999999999999999999999995, -3⟩)) .initial =
      .error .decimalInvalid .initial := by
  have ten : nearestHundredth (⟨false, 9995, -3⟩ : Scaled).toRat = 10 := by
    decide +kernel
  have limit : nearestHundredth (⟨true, 99999999999999999999999999995, -3⟩ : Scaled).toRat =
      -10 ^ 26 := by
    decide +kernel
  have small : |nearestHundredth (⟨false, 9995, -3⟩ : Scaled).toRat| < 10 ^ 26 := by
    rw [ten]
    norm_num
  refine ⟨small, ?_, ?_⟩
  · have := (normalize_finite_decimal ⟨false, 9995, -3⟩ ⟨false, 9995, -3⟩ .initial).1 small
    rwa [ten] at this
  · refine (normalize_finite_decimal ⟨true, 99999999999999999999999999995, -3⟩ ⟨false, 0, 0⟩
      .initial).2.1 ?_
    rw [limit]
    norm_num

end MediaCommand
