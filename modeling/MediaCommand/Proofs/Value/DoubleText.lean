import MediaCommand.Catalog.Fixed
import MediaCommand.Proofs.Number.Layout
import MediaCommand.Proofs.Number.Shortest

/-!
# The text of a double

A double is written as a decimal with at most three places (`FiniteDouble.written`): the integer
that it is next above, its shortest decimal, or the nearest thousandth. Its text reads back or is
within half a thousandth (`normalize_finite_double`), and texts keep the order of the doubles
(`normalize_double_mono`). Snapping to integers looks down only: just below one, the text has the
places of a rounded double (`normalize_near_int`).
-/

namespace MediaCommand

namespace FiniteDouble

/-- The decimal that a double is written as. -/
def written (x : FiniteDouble) : Scaled :=
  if x.isWhole then .ofInt x.floor
  else if fractionLimit < x.fractionDigits then x.toScaled.rounded fractionLimit .toEven
  else x.shortest

def thousandths : Set Rat := multiplesOf (1 / 1000)

variable {x : FiniteDouble} {n : Int}

theorem floor_eq (x : FiniteDouble) : x.floor = ⌊x.toRat⌋ := rfl

theorem isWhole_iff : x.isWhole = true ↔ x.toRat - ⌊x.toRat⌋ < snapDistance := by
  rw [isWhole, decide_eq_true_iff, floor_eq]

theorem tenth_lt_snapDistance : (1 : Rat) / 10 ^ 10 < snapDistance := by
  rw [snapDistance, Rat.mkRat_eq_div]
  norm_num

theorem snapDistance_lt : snapDistance < 1 / 2000 := by
  rw [snapDistance, Rat.mkRat_eq_div]
  norm_num

theorem isWhole_of_int (value : x.toRat = n) : x.isWhole = true := by
  have pos : (0 : Rat) < snapDistance := lt_trans (by norm_num) tenth_lt_snapDistance
  rw [isWhole_iff, value, Int.floor_intCast, sub_self]
  exact pos

/-! ## Doubles between integers -/

theorem exponent_neg (part : x.isWhole = false) : x.exponent < 0 := by
  by_contra whole
  obtain ⟨n, value⟩ := int_of_exponent (not_lt.1 whole)
  rw [isWhole_of_int value] at part
  cases part

theorem abs_toRat_lt_of_part (part : x.isWhole = false) : |x.toRat| < 2 ^ 52 := by
  simpa using abs_toRat_lt (exponent_neg part)

theorem step_le_half (part : x.isWhole = false) : x.step ≤ 1 / 2 := by
  calc x.step ≤ 2 ^ (-1 : Int) := zpow_le_zpow_right₀ (by norm_num) (by have := exponent_neg part; omega)
    _ = 1 / 2 := by norm_num

theorem shortest_ne_int (part : x.isWhole = false) : x.shortest.toRat ≠ n := by
  intro value
  have near := x.abs_sub_shortest_le
  have small := step_le_half part
  rw [value] at near
  have mem := near_mem_doubles (exponent_neg part) (near.trans (by linarith))
  have same := x.isNearest_shortest.eq_of_mem (by rwa [value])
  rw [isWhole_of_int (same.trans value)] at part
  cases part

theorem exponent_shortest_neg (part : x.isWhole = false) : x.shortest.exponent < 0 := by
  by_contra up
  obtain ⟨n, value⟩ := Scaled.int_of_exponent (not_lt.1 up)
  exact shortest_ne_int part value

theorem fractionDigits_eq (part : x.isWhole = false) :
    (x.fractionDigits : Int) = -x.shortest.exponent := by
  have below := exponent_shortest_neg part
  have broken : ¬x.toRat = x.truncate := fun value => by
    rw [isWhole_of_int value] at part
    cases part
  rw [fractionDigits, if_neg broken]
  omega

/-! ## The decimal that is written -/

theorem written_of_whole (whole : x.isWhole = true) : x.written = .ofInt ⌊x.toRat⌋ := if_pos whole

theorem written_of_long (part : x.isWhole = false) (long : fractionLimit < x.fractionDigits) :
    x.written = x.toScaled.rounded fractionLimit .toEven := by
  rw [written, part, if_neg (by simp), if_pos long]

theorem written_of_short (part : x.isWhole = false) (short : x.fractionDigits ≤ fractionLimit) :
    x.written = x.shortest := by
  rw [written, part, if_neg (by simp), if_neg (not_lt.2 short)]

theorem exponent_written (x : FiniteDouble) : -3 ≤ x.written.exponent ∧ x.written.exponent ≤ 0 := by
  cases whole : x.isWhole with
  | true =>
    rw [written_of_whole whole]
    exact ⟨by change -3 ≤ (0 : Int); decide, le_rfl⟩
  | false =>
    have digits := fractionDigits_eq whole
    rcases lt_or_ge fractionLimit x.fractionDigits with long | short
    · rw [written_of_long whole long]
      change -3 ≤ (-3 : Int) ∧ (-3 : Int) ≤ 0
      decide
    · rw [written_of_short whole short]
      rw [fractionLimit] at short
      omega

/-- The shortest decimal of such a double is written without an exponent. -/
theorem text_of_short (part : x.isWhole = false) (short : x.fractionDigits ≤ fractionLimit) :
    x.text = signed x.shortest.negative
      (fixedPoint (-x.shortest.exponent).toNat x.shortest.coefficient) := by
  have below := exponent_shortest_neg part
  have digits := fractionDigits_eq part
  rw [fractionLimit] at short
  have nonzero : x.shortest.coefficient ≠ 0 := fun none => by
    have value : x.shortest.toRat = (0 : Int) := by
      rw [Int.cast_zero, ← abs_eq_zero, x.shortest.abs_toRat_eq_zero, none]
    exact shortest_ne_int part value
  have low : -4 ≤ x.shortest.leadingPower := by
    have : 0 < digitCount x.shortest.coefficient := Nat.length_toDigits_pos
    rw [Scaled.leadingPower]
    omega
  have high : x.shortest.leadingPower < 16 := by
    obtain ⟨large, -⟩ := Scaled.leadingPower_bounds nonzero
    have near := x.abs_sub_shortest_le
    have small := step_le_half part
    have size := abs_toRat_lt_of_part part
    have least : (10 : Rat) ^ x.shortest.leadingPower < 10 ^ (16 : Int) := by
      have := abs_sub_abs_le_abs_sub x.shortest.toRat x.toRat
      have bound : (2 : Rat) ^ 52 + 1 / 4 < 10 ^ (16 : Int) := by norm_num
      linarith
    exact (zpow_lt_zpow_iff_right₀ (by norm_num)).1 least
  rw [text, FloatLayout.write, if_pos ⟨low, high⟩,
    FloatLayout.positional_eq_fixedPoint (k := (-x.shortest.exponent).toNat) (by omega) (by omega)]

theorem normal_eq (x : FiniteDouble) : x.normal = signed x.written.negative
    (fixedPoint (-x.written.exponent).toNat x.written.coefficient) := by
  cases whole : x.isWhole with
  | true =>
    rw [normal, whole, if_pos rfl, written_of_whole whole, toList_toString_int]
    rfl
  | false =>
    rw [normal, whole, if_neg (by simp)]
    rcases lt_or_ge fractionLimit x.fractionDigits with long | short
    · rw [if_pos long, written_of_long whole long]
      rfl
    · rw [if_neg (not_lt.2 short), written_of_short whole short, text_of_short whole short]

/-- The text of a double as a plain numeral. -/
def numeral (x : FiniteDouble) : PlainNumeral :=
  .ofFixed x.written.negative (-x.written.exponent).toNat x.written.coefficient

theorem text_numeral (x : FiniteDouble) : x.numeral.text = String.ofList x.normal := by
  rw [numeral, PlainNumeral.text_ofFixed, normal_eq]

theorem number_numeral (x : FiniteDouble) : x.numeral.number = x.written := by
  have places : -((-x.written.exponent).toNat : Int) = x.written.exponent := by
    have := x.exponent_written
    omega
  rw [numeral, PlainNumeral.number_ofFixed, places]

theorem length_fraction_numeral (x : FiniteDouble) : x.numeral.fraction.length ≤ 3 := by
  have := x.exponent_written
  rw [numeral, PlainNumeral.length_fraction_ofFixed]
  omega

theorem normalize_eq (x : FiniteDouble) (tokens : Tokens) :
    normalize (.float (.finite x)) tokens = .ok (some x.numeral.text) tokens := by
  rw [text_numeral]
  rfl

theorem shownNumber?_numeral (x : FiniteDouble) :
    shownNumber? x.numeral.text = some x.written.toRat := by
  rw [shownNumber?, PlainNumeral.decimal?_text, number_numeral]

/-! ## How far the text is from the double -/

/-- A double with more places is written as a nearest thousandth. -/
theorem isNearest_written (part : x.isWhole = false) (long : fractionLimit < x.fractionDigits) :
    IsNearest thousandths x.toRat x.written.toRat := by
  have nearest := x.toScaled.isNearest_rounded fractionLimit .toEven
  have step : (10 : Rat) ^ (-(fractionLimit : Nat) : Int) = 1 / 1000 := by
    norm_num [fractionLimit]
  rw [step, toRat_toScaled] at nearest
  rw [written_of_long part long]
  exact nearest

theorem toRat_written_of_whole (whole : x.isWhole = true) : x.written.toRat = ⌊x.toRat⌋ := by
  rw [written_of_whole whole, Scaled.toRat_ofInt]

/-- The text reads back, or it shows a number within half a thousandth. -/
theorem readsBack_or_near (x : FiniteDouble) :
    real? x.numeral.text.toList = some (.finite x) ∨ |x.written.toRat - x.toRat| ≤ 1 / 2000 := by
  rw [PlainNumeral.real?_text, number_numeral]
  cases whole : x.isWhole with
  | true =>
    right
    have above := Int.floor_le x.toRat
    have near := isWhole_iff.1 whole
    have small := snapDistance_lt
    rw [toRat_written_of_whole whole, abs_sub_comm, abs_of_nonneg (by linarith)]
    linarith
  | false =>
    rcases lt_or_ge fractionLimit x.fractionDigits with long | short
    · right
      have near := (isNearest_written whole long).abs_sub_le (by norm_num)
      rw [abs_sub_comm]
      linarith
    · rw [written_of_short whole short]
      rcases x.shortest_cases with back | exact
      · exact .inl (congrArg some back)
      · right
        rw [exact, toRat_toScaled, sub_self, abs_zero]
        norm_num

/-! ## The order of texts -/

theorem int_mem_thousandths (n : Int) : (n : Rat) ∈ thousandths := ⟨n * 1000, by push_cast; ring⟩

/-- A decimal with at most three places is a number of thousandths. -/
theorem mem_thousandths {decimal : Scaled} (places : -3 ≤ decimal.exponent) :
    decimal.toRat ∈ thousandths := by
  obtain ⟨up, same⟩ := Int.eq_ofNat_of_zero_le (show 0 ≤ decimal.exponent + 3 by omega)
  obtain ⟨n, value⟩ := @withSign_mem_multiplesOf (1 / 1000) decimal.negative
    (decimal.coefficient * 10 ^ up)
  refine ⟨n, ?_⟩
  have power : (10 : Rat) ^ decimal.exponent = 10 ^ up * (1 / 1000) := by
    rw [show decimal.exponent = up + -3 by omega, zpow_add₀ (by norm_num), zpow_natCast]
    norm_num
  rw [decimal.toRat_eq_withSign, power, ← value, ← mul_assoc]
  push_cast
  rfl

/-- What a double shows that is not next above an integer: a nearest thousandth to it, or a number of
thousandths to which it is the nearest double. -/
theorem written_cases (part : x.isWhole = false) :
    IsNearest thousandths x.toRat x.written.toRat ∨
      x.written.toRat ∈ thousandths ∧ IsNearest doubles x.written.toRat x.toRat := by
  rcases lt_or_ge fractionLimit x.fractionDigits with long | short
  · exact .inl (isNearest_written part long)
  · refine .inr ⟨mem_thousandths x.exponent_written.1, ?_⟩
    rw [written_of_short part short]
    exact x.isNearest_shortest

/-- A double that is not next above an integer shows no number beyond one. -/
theorem written_le_int (part : x.isWhole = false) (le : x.toRat ≤ n) : x.written.toRat ≤ n := by
  have bound : x.written.toRat ≤ ⌈x.toRat⌉ := by
    rcases written_cases part with nearest | ⟨-, back⟩
    · exact nearest.le_of_le (int_mem_thousandths _) (Int.le_ceil _)
    · by_contra above
      have := back.le_of_ge x.ceil_mem_doubles (not_le.1 above).le
      have value := le_antisymm (Int.le_ceil x.toRat) this
      rw [isWhole_of_int value] at part
      cases part
  exact bound.trans (by exact_mod_cast Int.ceil_le.2 le)

theorem int_le_written (le : n ≤ x.toRat) : n ≤ x.written.toRat := by
  have below : (n : Rat) ≤ ⌊x.toRat⌋ := by exact_mod_cast Int.le_floor.2 le
  refine below.trans ?_
  cases part : x.isWhole with
  | true => rw [toRat_written_of_whole part]
  | false =>
    rcases written_cases part with nearest | ⟨-, back⟩
    · exact nearest.le_of_ge (int_mem_thousandths _) (Int.floor_le _)
    · by_contra under
      have := back.le_of_le x.floor_mem_doubles (not_le.1 under).le
      have value := le_antisymm this (Int.floor_le x.toRat)
      rw [isWhole_of_int value] at part
      cases part

/-- Doubles that both show thousandths show them in their order. -/
theorem written_le_of_part {y : FiniteDouble} (part : x.isWhole = false) (part' : y.isWhole = false)
    (lt : x.toRat < y.toRat) : x.written.toRat ≤ y.written.toRat := by
  rcases written_cases part with nearest | ⟨mem, back⟩ <;>
    rcases written_cases part' with nearest' | ⟨mem', back'⟩
  · exact nearest.mono nearest' lt
  · refine nearest.le_of_le mem' ?_
    by_contra under
    exact absurd (back'.le_of_le x.mem_doubles (not_le.1 under).le) (not_le.2 lt)
  · refine nearest'.le_of_ge mem ?_
    by_contra above
    exact absurd (back.le_of_ge y.mem_doubles (not_le.1 above).le) (not_le.2 lt)
  · by_contra swapped
    exact absurd (back'.mono back (not_le.1 swapped)) (not_le.2 lt)

/-- A greater double does not show less. -/
theorem written_mono {y : FiniteDouble} (le : x.toRat ≤ y.toRat) :
    x.written.toRat ≤ y.written.toRat := by
  cases part : x.isWhole with
  | true =>
    rw [toRat_written_of_whole part]
    exact int_le_written ((Int.floor_le _).trans le)
  | false =>
    cases part' : y.isWhole with
    | true =>
      -- A double between the integer that is shown and `y` would show that integer as well.
      have near := isWhole_iff.1 part'
      have : x.toRat ≤ ⌊y.toRat⌋ := by
        by_contra above
        have same : ⌊x.toRat⌋ = ⌊y.toRat⌋ :=
          le_antisymm (Int.floor_le_floor le) (Int.le_floor.2 (not_le.1 above).le)
        have whole : x.isWhole = true := isWhole_iff.2 (by rw [same]; linarith)
        rw [whole] at part
        cases part
      rw [toRat_written_of_whole part']
      exact written_le_int part this
    | false =>
      rcases le.eq_or_lt with same | lt
      · have nonzero : x.toRat ≠ 0 := fun none => by
          rw [isWhole_of_int (n := 0) (by simpa using none)] at part
          cases part
        rw [eq_of_toRat nonzero same]
      · exact written_le_of_part part part' lt

/-! ## Doubles near an integer -/

/-- A double that is no integer is at least a step away from each of them. -/
theorem step_le_abs_sub (part : x.isWhole = false) (n : Int) : x.step ≤ |x.toRat - n| := by
  by_contra near
  have value := eq_of_multiples x.mem_multiplesOf_step
    (int_mem_multiplesOf_step (exponent_neg part).le n) (not_le.1 near)
  rw [isWhole_of_int value] at part
  cases part

section Below

variable (below : x.toRat < n) (near : n - x.toRat < 1 / 10 ^ 10)
include below near

theorem isWhole_of_below : x.isWhole = false := by
  have floor : ⌊x.toRat⌋ = n - 1 := by
    rw [Int.floor_eq_iff]
    push_cast
    constructor <;> linarith
  have small := snapDistance_lt
  rw [Bool.eq_false_iff, ne_eq, isWhole_iff, floor]
  push_cast
  linarith

/-- Its shortest decimal has many places, or it would be the integer. -/
theorem long_of_below : fractionLimit < x.fractionDigits := by
  have part := isWhole_of_below below near
  by_contra short
  have mem := mem_thousandths x.exponent_written.1
  rw [written_of_short part (not_lt.1 short)] at mem
  have shortest := x.abs_sub_shortest_le
  have step := step_le_abs_sub part n
  rw [abs_of_neg (by linarith)] at step
  refine shortest_ne_int part (eq_of_multiples mem (int_mem_thousandths n) ?_)
  have apart := abs_sub_le x.shortest.toRat x.toRat n
  rw [abs_of_neg (show x.toRat - n < 0 by linarith)] at apart
  linarith

theorem toRat_written_of_below : x.written.toRat = n := by
  have part := isWhole_of_below below near
  have rounded := (isNearest_written part (long_of_below below near)).abs_sub_le (by norm_num)
  refine eq_of_multiples (mem_thousandths x.exponent_written.1) (int_mem_thousandths n) ?_
  have apart := abs_sub_le x.written.toRat x.toRat n
  rw [abs_of_neg (show x.toRat - n < 0 by linarith), abs_sub_comm x.written.toRat x.toRat] at apart
  linarith

theorem negative_of_below : x.negative = decide (n ≤ 0) := by
  rcases le_or_gt n 0 with low | high
  · have low' : (n : Rat) ≤ 0 := by exact_mod_cast low
    rw [negative_of_neg (by linarith), decide_eq_true low]
  · have high' : (1 : Rat) ≤ n := by exact_mod_cast high
    rw [negative_of_pos (by linarith), decide_eq_false (not_le.2 high)]

/-- A double just below an integer is written as that integer with three places. -/
theorem written_of_below : x.written = ⟨decide (n ≤ 0), n.natAbs * 1000, -3⟩ := by
  have long := written_of_long (isWhole_of_below below near) (long_of_below below near)
  have value := congrArg abs (toRat_written_of_below below near)
  have place : (10 : Rat) ^ (-(fractionLimit : Nat) : Int) = 1 / 1000 := by
    norm_num [fractionLimit]
  rw [long, Scaled.abs_toRat, Scaled.rounded, place, mul_one_div, div_eq_iff (by norm_num),
    ← Int.cast_abs, ← Nat.cast_natAbs] at value
  have units : x.toScaled.units fractionLimit .toEven = n.natAbs * 1000 := by exact_mod_cast value
  rw [long, Scaled.rounded, units, negative_toScaled, negative_of_below below near]
  rfl

end Below

theorem fixedPoint_thousands (m : Nat) :
    fixedPoint 3 (m * 1000) = decimalDigits m ++ ['.', '0', '0', '0'] := by
  have whole : m * 1000 / 10 ^ 3 = m := Nat.mul_div_cancel m (by decide)
  have rest : m * 1000 % 10 ^ 3 = 0 := Nat.mul_mod_left m 1000
  rw [fixedPoint, if_neg (by decide), whole, rest]
  rfl

end FiniteDouble

section Writing

variable (x : FiniteDouble) (n : Int) (tokens : Tokens)

theorem normalize_of_above (above : n ≤ x.toRat) (near : x.toRat - n < 1 / 10 ^ 10) :
    normalize (.float (.finite x)) tokens = .ok (some (toString n)) tokens := by
  have floor : ⌊x.toRat⌋ = n := by
    rw [Int.floor_eq_iff]
    constructor <;> linarith
  have whole : x.isWhole = true := by
    rw [FiniteDouble.isWhole_iff, floor]
    exact near.trans FiniteDouble.tenth_lt_snapDistance
  have text : String.ofList x.normal = toString n := by
    rw [FiniteDouble.normal, whole, if_pos rfl, FiniteDouble.floor_eq, floor, String.ofList_toList]
  rw [← text]
  rfl

theorem normalize_of_below (below : x.toRat < n) (near : n - x.toRat < 1 / 10 ^ 10) :
    normalize (.float (.finite x)) tokens =
      .ok (some ((if n = 0 then "-0" else toString n) ++ ".000")) tokens := by
  have text : String.ofList x.normal = (if n = 0 then "-0" else toString n) ++ ".000" := by
    have three : (-(-3 : Int)).toNat = 3 := rfl
    rw [x.normal_eq, FiniteDouble.written_of_below below near, three,
      FiniteDouble.fixedPoint_thousands, ← String.toList_inj, String.toList_ofList,
      String.toList_append]
    split
    · next none => 
      subst none
      rfl
    · next some =>
      rw [toList_toString_int, show decide (n ≤ 0) = decide (n < 0) from decide_eq_decide.2 (by omega)]
      cases decide (n < 0) <;> rfl
  rw [← text]
  rfl

end Writing

/-- **The text of a double is plain and accurate.** A finite double is written as a sign or none,
digits, and perhaps a point with at most three more. That text reads back as the double, or it shows
a number within half a thousandth of it. -/
theorem normalize_finite_double (x : FiniteDouble) (tokens : Tokens) :
    ∃ plain : PlainNumeral,
      normalize (.float (.finite x)) tokens = .ok (some plain.text) tokens ∧
      plain.fraction.length ≤ 3 ∧
      ∃ q, shownNumber? plain.text = some q ∧
        (real? plain.text.toList = some (.finite x) ∨ |q - x.toRat| ≤ 1 / 2000) :=
  ⟨x.numeral, x.normalize_eq tokens, x.length_fraction_numeral, x.written.toRat,
    x.shownNumber?_numeral, x.readsBack_or_near⟩

/-- **Texts keep the order of the doubles**, also where the one is written as an integer or as its
shortest decimal and the other is rounded. -/
theorem normalize_double_mono (x y : FiniteDouble) (tokens : Tokens) (le : x.toRat ≤ y.toRat) :
    ∃ text other p q,
      normalize (.float (.finite x)) tokens = .ok (some text) tokens ∧
      normalize (.float (.finite y)) tokens = .ok (some other) tokens ∧
      shownNumber? text = some p ∧ shownNumber? other = some q ∧ p ≤ q :=
  ⟨_, _, _, _, x.normalize_eq tokens, y.normalize_eq tokens, x.shownNumber?_numeral,
    y.shownNumber?_numeral, FiniteDouble.written_mono le⟩

def FiniteDouble.one : FiniteDouble :=
  ⟨false, 4503599627370496, -52, by decide, by decide, by decide, .inl (by decide)⟩

/-- The double before one, which shows one as well. -/
def FiniteDouble.beforeOne : FiniteDouble :=
  ⟨false, 9007199254740991, -53, by decide, by decide, by decide, .inl (by decide)⟩

theorem normalize_double_mono_one :
    FiniteDouble.beforeOne.toRat ≤ FiniteDouble.one.toRat ∧
    ∃ text other p q,
      normalize (.float (.finite .beforeOne)) .initial = .ok (some text) .initial ∧
      normalize (.float (.finite .one)) .initial = .ok (some other) .initial ∧
      shownNumber? text = some p ∧ shownNumber? other = some q ∧ p ≤ q := by
  have le : FiniteDouble.beforeOne.toRat ≤ FiniteDouble.one.toRat := by
    decide +kernel
  exact ⟨le, normalize_double_mono .beforeOne .one .initial le⟩

/-- **Doubles snap to the integer below them.** A double less than `1e-10` from an integer shows just
that integer. From the integer on its text is that of the integer; below it the three places of a
rounded double stand behind, and in front of a zero the sign of the double. -/
theorem normalize_near_int (x : FiniteDouble) (n : Int) (tokens : Tokens)
    (near : |x.toRat - n| < 1 / 10 ^ 10) :
    (n ≤ x.toRat → normalize (.float (.finite x)) tokens = .ok (some (toString n)) tokens) ∧
    (x.toRat < n → normalize (.float (.finite x)) tokens =
      .ok (some ((if n = 0 then "-0" else toString n) ++ ".000")) tokens) := by
  rw [abs_lt] at near
  exact ⟨fun above => normalize_of_above x n tokens above (by linarith),
    fun below => normalize_of_below x n tokens below (by linarith)⟩

/-- The double that is read from `3.99999999999`. -/
def FiniteDouble.belowFour : FiniteDouble :=
  ⟨false, 9007199254718474, -51, by decide, by decide, by decide, .inl (by decide)⟩

theorem normalize_near_four :
    |FiniteDouble.belowFour.toRat - (4 : Int)| < 1 / 10 ^ 10 ∧
    normalize (.float (.finite .belowFour)) .initial = .ok (some "4.000") .initial := by
  have near : |FiniteDouble.belowFour.toRat - (4 : Int)| < 1 / 10 ^ 10 := by
    decide +kernel
  have below : FiniteDouble.belowFour.toRat < (4 : Int) := by
    decide +kernel
  exact ⟨near, (normalize_near_int .belowFour 4 .initial near).2 below⟩

/-- Not every double near an integer has the text of that integer. -/
theorem normalize_near_keeps_places :
    ¬ ∀ (x : FiniteDouble) (n : Int) (tokens : Tokens), |x.toRat - n| < 1 / 10 ^ 10 →
      normalize (.float (.finite x)) tokens = .ok (some (toString n)) tokens := by
  intro snaps
  have below : FiniteDouble.belowFour.toRat < (4 : Int) := by
    decide +kernel
  have near : (4 : Int) - FiniteDouble.belowFour.toRat < 1 / 10 ^ 10 := by
    decide +kernel
  have written := normalize_of_below .belowFour 4 .initial below near
  have due := snaps .belowFour 4 .initial (by rwa [abs_sub_comm, abs_of_pos (sub_pos.2 below)])
  rw [written, if_neg (by decide)] at due
  simp only [EStateM.Result.ok.injEq, Option.some.injEq, and_true] at due
  exact absurd due (by decide)

end MediaCommand
