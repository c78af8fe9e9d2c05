import MediaCommand.Proofs.Number.Division
import MediaCommand.Proofs.Number.Numeral

/-!
# Clock faces

A `ClockFace` holds the digits of a clock of hours, minutes and seconds with two places. Unless the
hours have too many digits, its text is read as the double of the time that it shows
(`ClockFace.clockSeconds_text`).
-/

namespace MediaCommand

/-- Three numbers between colons are a clock. -/
theorem clockSeconds_of_parts {clock : String} {hours minutes seconds : List Char} {h m : Int}
    {s : Double} (parts : splitAt ':' clock.toList = [hours, minutes, seconds])
    (hour : integer? hours = some h) (minute : integer? minutes = some m)
    (second : real? seconds = some s) :
    clockSeconds clock = do return (← Double.ofInt? (h * 3600 + m * 60)).add s := by
  simp only [clockSeconds, parts, readInteger_eq_ok.2 hour, readInteger_eq_ok.2 minute,
    readReal_eq_ok.2 second]
  rfl

theorem Double.ofInt?_of_few {n : Nat} (few : n < 2 ^ 53) :
    ∃ k : FiniteDouble, Double.ofInt? n = .ok (.finite k) ∧ k.toRat = n := by
  obtain ⟨k, made, value⟩ := Double.ofInt_of_few (n := n) (by
    rw [abs_of_nonneg (Int.natCast_nonneg n)]
    exact_mod_cast few)
  refine ⟨k, ?_, value⟩
  rw [Double.ofInt?, made]

/-! ## Faces -/

/-- The digits of a clock: hours and minutes, and seconds with two places. The minutes do not reach
an hour; whether the seconds reach a minute is left open (`ClockFace.IsValid`). -/
structure ClockFace where
  hours : List Char
  minutes : List Char
  seconds : List Char
  hundredths : List Char
  digits : ∀ c ∈ hours ++ minutes ++ (seconds ++ hundredths), isAsciiDigit c = true
  hours_length : 2 ≤ hours.length
  minutes_length : minutes.length = 2
  seconds_length : seconds.length = 2
  hundredths_length : hundredths.length = 2
  minutes_lt : digitsValue minutes < 60

namespace ClockFace

def text (face : ClockFace) : String :=
  String.ofList (face.hours ++ ':' :: (face.minutes ++ ':' :: (face.seconds ++ '.' :: face.hundredths)))

/-- The seconds do not reach a minute. -/
def IsValid (face : ClockFace) : Prop := digitsValue face.seconds < 60

instance (face : ClockFace) : Decidable face.IsValid := by
  unfold IsValid
  infer_instance

/-- The seconds of the hours and minutes. -/
def whole (face : ClockFace) : Nat := 3600 * digitsValue face.hours + 60 * digitsValue face.minutes

/-- The seconds as a numeral. -/
def rest (face : ClockFace) : PlainNumeral where
  negative := false
  whole := face.seconds
  fraction := face.hundredths
  digits c mem := face.digits c (List.mem_append_right _ mem)
  whole_ne_nil := List.ne_nil_of_length_pos (by rw [face.seconds_length]; decide)

/-- The time that is shown. -/
def time (face : ClockFace) : Rat := face.whole + face.rest.number.toRat

variable (face : ClockFace)

theorem fraction_rest_ne_nil : face.rest.fraction ≠ [] :=
  List.ne_nil_of_length_pos (by
    change 0 < face.hundredths.length
    rw [face.hundredths_length]
    decide)

theorem toList_text_rest : face.rest.text.toList = face.seconds ++ '.' :: face.hundredths := by
  rw [PlainNumeral.text, String.toList_ofList,
    PlainNumeral.characters_of_fraction face.fraction_rest_ne_nil]
  rfl

theorem splitAt_text : splitAt ':' face.text.toList =
    [face.hours, face.minutes, face.rest.text.toList] := by
  have apart (digits : List Char) (only : ∀ c ∈ digits, isAsciiDigit c = true) :
      ∀ c ∈ digits, c ≠ ':' := by
    rintro c mem rfl
    exact absurd (only ':' mem) (by decide)
  have hours := apart face.hours fun c mem => face.digits c (by simp [mem])
  have minutes := apart face.minutes fun c mem => face.digits c (by simp [mem])
  have seconds : ∀ c ∈ face.seconds ++ '.' :: face.hundredths, c ≠ ':' := by
    intro c mem
    rcases List.mem_append.1 mem with mem | mem
    · exact apart face.seconds (fun c mem => face.digits c (by simp [mem])) c mem
    · rcases List.mem_cons.1 mem with rfl | mem
      · decide
      · exact apart face.hundredths (fun c mem => face.digits c (by simp [mem])) c mem
  rw [text, String.toList_ofList, splitAt_append hours, splitAt_append minutes,
    splitAt_of_notMem seconds, toList_text_rest]

/-- A clock is read by its parts. -/
theorem clockSeconds_eq (short : face.hours.length ≤ digitLimit) : clockSeconds face.text = do
    return (← Double.ofInt? face.whole).add (.ofScaled face.rest.number) := by
  have hours : integer? face.hours = some (digitsValue face.hours : Int) :=
    integer?_digits (fun c mem => face.digits c (by simp [mem]))
      (List.ne_nil_of_length_pos (by have := face.hours_length; omega)) short
  have minutes : integer? face.minutes = some (digitsValue face.minutes : Int) :=
    integer?_digits (fun c mem => face.digits c (by simp [mem]))
      (List.ne_nil_of_length_pos (by have := face.minutes_length; omega))
      (by rw [face.minutes_length]; decide)
  have whole : ((digitsValue face.hours : Int) * 3600 + (digitsValue face.minutes : Int) * 60) =
      (face.whole : Int) := by
    rw [ClockFace.whole]
    push_cast
    ring
  rw [← whole]
  exact clockSeconds_of_parts face.splitAt_text hours minutes face.rest.real?_text

theorem toRat_rest :
    face.rest.number.toRat = (digitsValue (face.seconds ++ face.hundredths) : Rat) / 100 := by
  have number : face.rest.number = ⟨false, digitsValue (face.seconds ++ face.hundredths), -2⟩ := by
    rw [PlainNumeral.number, rest, face.hundredths_length]
    rfl
  rw [number, Scaled.toRat_eq_withSign, withSign, if_neg (by simp), div_eq_mul_inv]
  norm_num

theorem rest_nonneg : 0 ≤ face.rest.number.toRat := by
  rw [toRat_rest]
  positivity

theorem rest_le : face.rest.number.toRat ≤ 100 := by
  have few := digitsValue_lt fun c (mem : c ∈ face.seconds ++ face.hundredths) =>
    face.digits c (List.mem_append_right _ mem)
  rw [List.length_append, face.seconds_length, face.hundredths_length] at few
  have few : (digitsValue (face.seconds ++ face.hundredths) : Rat) < 10000 := by
    exact_mod_cast few
  rw [toRat_rest]
  linarith

/-- The double of the seconds. -/
theorem exists_seconds : ∃ c : FiniteDouble, Double.ofScaled face.rest.number = .finite c ∧
    0 ≤ c.toRat ∧ c.toRat ≤ 100 := by
  have nonneg := face.rest_nonneg
  have le := face.rest_le
  have most : (2 : Rat) ^ (7 : Int) ≤ FiniteDouble.largest :=
    FiniteDouble.two_zpow_le_largest (by decide)
  obtain ⟨c, read⟩ := Double.ofScaled_isFinite (x := face.rest.number) (by
    rw [abs_of_nonneg nonneg]
    refine le.trans (le_trans ?_ most)
    norm_num)
  have nearest := Double.isNearest_ofScaled read
  have hundred : (100 : Rat) ∈ doubles := by exact_mod_cast int_mem_doubles (n := 100) (by decide)
  exact ⟨c, read, nearest.le_of_ge zero_mem_doubles nonneg, nearest.le_of_le hundred le⟩

section Reading

variable {face} {c read : FiniteDouble} (seconds : Double.ofScaled face.rest.number = .finite c)
include seconds

/-- A clock is read as the rounded sum of its minutes, which are exact, and its seconds. -/
theorem clockSeconds_sum (short : face.hours.length ≤ digitLimit) (above : 0 ≤ c.toRat)
    (below : c.toRat ≤ 100) (few : face.whole < 2 ^ 53) :
    ∃ read : FiniteDouble, clockSeconds face.text = .ok (.finite read) ∧
      IsNearest doubles (face.whole + c.toRat) read.toRat ∧
      |face.whole + c.toRat - read.toRat| ≤ read.step / 2 := by
  obtain ⟨k, made, whole⟩ := Double.ofInt?_of_few few
  have few : (face.whole : Rat) < 2 ^ 53 := by exact_mod_cast few
  have most : (2 : Rat) ^ (54 : Int) ≤ FiniteDouble.largest :=
    FiniteDouble.two_zpow_le_largest (by decide)
  obtain ⟨read, sum⟩ := Double.ofRat_isFinite (k.negative && c.negative) (q := k.toRat + c.toRat) (by
    rw [whole, abs_of_nonneg (by positivity)]
    refine le_trans ?_ most
    norm_num
    linarith)
  refine ⟨read, ?_, whole ▸ Double.isNearest_ofRat sum, whole ▸ Double.abs_sub_ofRat_le sum⟩
  rw [clockSeconds_eq face short, made]
  change Except.ok ((Double.finite k).add (.ofScaled face.rest.number)) = _
  rw [seconds, Double.add, sum]

/-- Neither rounding moves the time by more than half a step of the result. -/
theorem near_of_sum (above : 0 ≤ c.toRat) (sum : IsNearest doubles (face.whole + c.toRat) read.toRat)
    (second : |face.whole + c.toRat - read.toRat| ≤ read.step / 2) :
    |read.toRat - face.time| ≤ read.step := by
  have first := Double.abs_sub_ofScaled_le seconds
  have pos : (0 : Rat) ≤ face.whole := Nat.cast_nonneg _
  have grow : c.toRat ≤ read.toRat := sum.le_of_ge c.mem_doubles (by linarith)
  have steps : c.step ≤ read.step := FiniteDouble.step_le_step (by
    rwa [abs_of_nonneg above, abs_of_nonneg (above.trans grow)])
  rw [time]
  rw [abs_le] at first second ⊢
  constructor <;> linarith

/-- Whole seconds are not rounded. -/
theorem int_of_sum (sum : IsNearest doubles (face.whole + c.toRat) read.toRat)
    {n : Int} (small : n < 2 ^ 53) (value : face.time = n) : read.toRat = n := by
  have rest : face.rest.number.toRat = (n - face.whole : Int) := by
    rw [time] at value
    push_cast
    linarith
  have nonneg := face.rest_nonneg
  have le := face.rest_le
  rw [rest] at nonneg le
  have nonneg : 0 ≤ n - face.whole := by exact_mod_cast nonneg
  have le : n - face.whole ≤ 100 := by exact_mod_cast le
  have nearest := Double.isNearest_ofScaled seconds
  rw [rest] at nearest
  have exact := nearest.eq_of_mem (int_mem_doubles (abs_lt.2 ⟨by omega, by omega⟩))
  have total : (face.whole : Rat) + c.toRat = n := by
    rw [exact]
    push_cast
    ring
  rw [total] at sum
  exact sum.eq_of_mem (int_mem_doubles (abs_lt.2 ⟨by omega, small⟩))

end Reading

/-- **A clock reads as what it shows**, up to a step of the result: seconds with places and the sum are
each rounded to a double. Whole seconds are exact. -/
theorem clockSeconds_text (short : face.hours.length ≤ digitLimit) (few : face.whole < 2 ^ 53) :
    ∃ read : FiniteDouble, clockSeconds face.text = .ok (.finite read) ∧
      |read.toRat - face.time| ≤ read.step ∧
      ∀ n : Int, n < 2 ^ 53 → face.time = n → read.toRat = n := by
  obtain ⟨c, seconds, above, below⟩ := face.exists_seconds
  obtain ⟨read, reading, sum, near⟩ := clockSeconds_sum seconds short above below few
  exact ⟨read, reading, near_of_sum seconds above sum near,
    fun n small value => int_of_sum seconds sum small value⟩

end ClockFace

end MediaCommand
