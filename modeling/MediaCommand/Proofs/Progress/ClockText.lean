import MediaCommand.Proofs.Action
import MediaCommand.Proofs.Progress.ClockFace

/-!
# Clocks that are written

A number of seconds is split into hours, minutes and seconds (`Clock.Split`), and those are written as
a face that reads back (`clocks_read_back`). The seconds are rounded after the split, so the face of a
number just below a minute is not valid (`Clock.Split.isValid_iff`). The time left on a progress line
is such a clock (`Progress.ofLine_eta`).
-/

namespace MediaCommand

namespace ClockFace

/-! ## The faces of numbers -/

/-- The face of hours, minutes and hundredths of a second. -/
def ofParts (hours minutes units : Nat) (fits : minutes < 60) (few : units ≤ 6000) : ClockFace where
  hours := paddedDigits 2 hours
  minutes := paddedDigits 2 minutes
  seconds := paddedDigits 2 (units / 100)
  hundredths := paddedDigits 2 (units % 100)
  digits c mem := by
    simp only [List.mem_append] at mem
    rcases mem with (mem | mem) | (mem | mem) <;> exact mem_paddedDigits mem
  hours_length := le_length_paddedDigits 2 hours
  minutes_length := length_paddedDigits (by decide) (by omega)
  seconds_length := length_paddedDigits (by decide) (by omega)
  hundredths_length := length_paddedDigits (by decide) (by omega)
  minutes_lt := by rwa [digitsValue_paddedDigits]

section OfParts

variable {hours minutes units : Nat} (fits : minutes < 60) (few : units ≤ 6000)

theorem whole_ofParts : (ofParts hours minutes units fits few).whole = 3600 * hours + 60 * minutes := by
  rw [whole, ofParts, digitsValue_paddedDigits, digitsValue_paddedDigits]

theorem toRat_rest_ofParts :
    (ofParts hours minutes units fits few).rest.number.toRat = (units : Rat) / 100 := by
  have value : digitsValue (paddedDigits 2 (units / 100) ++ paddedDigits 2 (units % 100)) = units := by
    rw [digitsValue_append_padded _ (by decide) (by omega), digitsValue_paddedDigits]
    exact Nat.div_add_mod units 100
  rw [toRat_rest]
  simp only [ofParts, value]

theorem isValid_ofParts : (ofParts hours minutes units fits few).IsValid ↔ units < 6000 := by
  rw [IsValid, ofParts, digitsValue_paddedDigits]
  omega

end OfParts

end ClockFace

/-- Zeros are put in front of what has no sign. -/
theorem zeroPadded_eq (width : Nat) {text : List Char}
    (numeral : ∀ c ∈ text, isAsciiDigit c = true ∨ c = '.') :
    zeroPadded width text = List.replicate (width - text.length) '0' ++ text := by
  unfold zeroPadded
  split
  · exact absurd (numeral '-' (by simp)) (by decide)
  · rfl

theorem zeroPadded_decimalDigits (width n : Nat) :
    zeroPadded width (decimalDigits n) = paddedDigits width n :=
  zeroPadded_eq width fun _ mem => .inl (isAsciiDigit_of_mem_decimalDigits mem)

theorem zeroPadded_seconds (units : Nat) : zeroPadded secondsWidth (fixedPoint 2 units) =
    paddedDigits 2 (units / 100) ++ '.' :: paddedDigits 2 (units % 100) := by
  have places : (paddedDigits 2 (units % 100)).length = 2 :=
    length_paddedDigits (by decide) (Nat.mod_lt _ (by decide))
  rw [fixedPoint, if_neg (by decide), zeroPadded_eq]
  · have width : secondsWidth - (decimalDigits (units / 100) ++
        '.' :: paddedDigits 2 (units % 100)).length = 2 - (decimalDigits (units / 100)).length := by
      rw [List.length_append, List.length_cons, places, secondsWidth]
      omega
    rw [show 10 ^ 2 = 100 from rfl, width, ← List.append_assoc]
    rfl
  · intro c mem
    rcases List.mem_append.1 mem with mem | mem
    · exact .inl (isAsciiDigit_of_mem_decimalDigits mem)
    · rcases List.mem_cons.1 mem with rfl | mem
      · exact .inr rfl
      · exact .inl (mem_paddedDigits mem)

namespace Clock

/-- Hours, minutes and seconds that make up `s` seconds. They do for numbers of up to 53 bits in front
of the point; beyond, the hours may be rounded. -/
structure Split (s : Rat) (hours minutes : Nat) (seconds : Scaled) : Prop where
  minutes_lt : minutes < 60
  positive : seconds.negative = false
  seconds_eq : seconds.toRat = restOver s 60
  whole_eq : s < 2 ^ 53 → (3600 * hours + 60 * minutes : Nat) = s - restOver s 60

variable {s : Rat} {hours minutes : Nat} {seconds : Scaled}

namespace Split

/-- The hundredths are a nearest number of them. -/
theorem isNearest_units (split : Split s hours minutes seconds) :
    IsNearest (multiplesOf (1 / 100)) (restOver s 60) ((seconds.units 2 .toEven : Rat) / 100) := by
  have nearest := seconds.isNearest_rounded 2 .toEven
  have step : (10 : Rat) ^ (-(2 : Nat) : Int) = 1 / 100 := by norm_num
  have value : (seconds.rounded 2 .toEven).toRat = (seconds.units 2 .toEven : Rat) / 100 := by
    rw [Scaled.toRat_eq_withSign, withSign, Scaled.rounded, if_neg (by simp [split.positive]), step,
      mul_one_div]
  rwa [step, value, split.seconds_eq] at nearest

theorem units_le (split : Split s hours minutes seconds) : seconds.units 2 .toEven ≤ 6000 := by
  have most := split.isNearest_units.le_of_le (s := 60) ⟨6000, by norm_num⟩
    (restOver_lt s (by decide)).le
  have most : (seconds.units 2 .toEven : Rat) ≤ (6000 : Nat) := by
    push_cast
    linarith
  exact Nat.cast_le.1 most

/-- The face of a split. -/
def face (split : Split s hours minutes seconds) : ClockFace :=
  .ofParts hours minutes (seconds.units 2 .toEven) split.minutes_lt split.units_le

theorem clockText_eq (split : Split s hours minutes seconds) :
    clockText hours minutes seconds = split.face.text := by
  have whole (n : Nat) : zeroPadded 2 (signed (decide ((n : Int) < 0)) (decimalDigits (n : Int).natAbs)) =
      paddedDigits 2 n := by
    rw [decide_eq_false (by omega), Int.natAbs_natCast]
    exact zeroPadded_decimalDigits 2 n
  have rest : seconds.fixed secondsPlaces .toEven = fixedPoint 2 (seconds.units 2 .toEven) := by
    rw [Scaled.fixed, split.positive]
    rfl
  simp only [clockText, whole, rest, zeroPadded_seconds]
  simp [face, ClockFace.text, ClockFace.ofParts]

/-- The seconds stay below a minute unless they are rounded up to it. -/
theorem isValid_iff (split : Split s hours minutes seconds) :
    split.face.IsValid ↔ restOver s 60 < 11999 / 200 := by
  have reach := seconds.even_le_units_iff 2 (by decide : 6000 % 2 = 0)
  have limit : ((6000 : Nat) - 1 / 2 : Rat) * 10 ^ (-(2 : Nat) : Int) = 11999 / 200 := by norm_num
  rw [limit, split.seconds_eq, abs_of_nonneg (restOver_nonneg s (by decide))] at reach
  rw [face, ClockFace.isValid_ofParts, ← not_le, ← not_le, reach]

variable (split : Split s hours minutes seconds) (small : s < 2 ^ 53)
include small

theorem time_face : split.face.time = s - restOver s 60 + (seconds.units 2 .toEven : Rat) / 100 := by
  rw [ClockFace.time, face, ClockFace.toRat_rest_ofParts, ClockFace.whole_ofParts,
    ← split.whole_eq small]

theorem near : |split.face.time - s| ≤ 1 / 200 := by
  have near := split.isNearest_units.abs_sub_le (by norm_num)
  rw [split.time_face small]
  rw [abs_le] at near ⊢
  constructor <;> linarith

theorem whole_lt : split.face.whole < 2 ^ 53 := by
  have rest := restOver_nonneg s (by decide : 0 < 60)
  have whole := split.whole_eq small
  rw [← ClockFace.whole_ofParts split.minutes_lt split.units_le] at whole
  have less : (split.face.whole : Rat) < 2 ^ 53 := by
    change ((ClockFace.ofParts hours minutes _ split.minutes_lt split.units_le).whole : Rat) < 2 ^ 53
    linarith
  exact_mod_cast less

/-- The hours are not too many to be read. -/
theorem hours_length_le : split.face.hours.length ≤ digitLimit := by
  have whole := split.whole_lt small
  have parts : split.face.whole = 3600 * hours + 60 * minutes :=
    ClockFace.whole_ofParts split.minutes_lt split.units_le
  have few : digitCount hours ≤ 16 := (digitCount_le_iff (by decide)).2 (by omega)
  have digits : split.face.hours.length ≤ 2 + digitCount hours := by
    change (paddedDigits 2 hours).length ≤ _
    rw [paddedDigits, List.length_append, List.length_replicate, digitCount]
    omega
  exact digits.trans ((Nat.add_le_add_left few 2).trans (by decide))

/-- Whole seconds are shown as they are. -/
theorem time_of_int {n : Int} (integer : s = n) : split.face.time = s := by
  have rest : restOver s 60 = (n - 60 * ⌊s / 60⌋ : Int) := by
    rw [restOver, integer]
    push_cast
    rfl
  have nearest := split.isNearest_units
  have shown := nearest.eq_of_mem ⟨100 * (n - 60 * ⌊s / 60⌋), by
    rw [rest]
    push_cast
    ring⟩
  rw [split.time_face small, shown, sub_add_cancel]

end Split

/-! ## Numbers that are split -/

theorem ofInt_split {n : Nat} (small : n < 2 ^ 53) :
    ∃ (hours minutes : Nat) (seconds : Scaled),
      ofInt n = .ok (clockText hours minutes seconds) ∧ Split n hours minutes seconds := by
  have fits : IsConvertible ((n : Int).fdiv 3600) := by
    have quotient : (n : Int).fdiv 3600 = (n / 3600 : Nat) := (Int.ofNat_fdiv n 3600).symm
    rw [quotient]
    refine isConvertible_iff.2 (lt_of_lt_of_le (b := 10 ^ 16) ?_ ?_)
    · omega
    · exact Nat.pow_le_pow_right (by decide) (by decide)
  have rest : n % 3600 % 60 = n % 60 := Nat.mod_mod_of_dvd n (by decide)
  refine ⟨n / 3600, n % 3600 / 60, .ofInt (n % 60 : Nat), ?_, ?_, rfl, ?_, fun _ => ?_⟩
  · rw [← rest, ofInt, if_pos fits]
    simp only [Int.ofNat_fdiv, Int.ofNat_fmod]
    rfl
  · omega
  · rw [Scaled.toRat_ofInt, restOver_natCast, Int.cast_natCast]
  · have parts : 3600 * (n / 3600) + 60 * (n % 3600 / 60) + n % 60 = n := by omega
    rw [restOver_natCast, eq_sub_iff_add_eq]
    exact_mod_cast parts

/-- The clock of a double is that of the parts of its two divisions. -/
theorem ofDouble_eq {x h rest m seconds : FiniteDouble}
    (first : (Double.finite x).floorDivMod (.ofInt (3600 : Nat)) = (.finite h, .finite rest))
    (second : (Double.finite rest).floorDivMod (.ofInt (60 : Nat)) = (.finite m, .finite seconds)) :
    ofDouble (.finite x) = .ok (clockText h.truncate m.truncate seconds.toScaled) := by
  rw [Nat.cast_ofNat] at first second
  simp only [ofDouble, first, second]
  rfl

theorem ofDouble_split {x : FiniteDouble} (nonneg : 0 ≤ x.toRat) :
    ∃ (hours minutes : Nat) (seconds : Scaled),
      ofDouble (.finite x) = .ok (clockText hours minutes seconds) ∧
      Split x.toRat hours minutes seconds := by
  obtain ⟨h, rest, first, h_nonneg, h_exact, -, rest_eq⟩ :=
    Double.floorDivMod_integer nonneg (by decide : 0 < 3600) (by decide)
  have rest_nonneg : 0 ≤ rest.toRat := rest_eq ▸ restOver_nonneg x.toRat (by decide)
  have rest_lt : rest.toRat < (3600 : Nat) := rest_eq ▸ restOver_lt x.toRat (by decide)
  obtain ⟨m, seconds, second, m_nonneg, m_exact, positive, seconds_eq⟩ :=
    Double.floorDivMod_integer rest_nonneg (by decide : 0 < 60) (by decide)
  have m_exact := m_exact (rest_lt.trans (by norm_num))
  obtain ⟨hours, hours_eq⟩ := Int.eq_ofNat_of_zero_le (Int.floor_nonneg.2 h_nonneg)
  obtain ⟨minutes, minutes_eq⟩ := Int.eq_ofNat_of_zero_le (Int.floor_nonneg.2 m_nonneg)
  have minutes_floor : ⌊rest.toRat / (60 : Nat)⌋ = minutes := by
    rw [← minutes_eq, m_exact, Int.floor_intCast]
  refine ⟨hours, minutes, seconds.toScaled, ?_, ?_, ?_, ?_, fun small => ?_⟩
  · have hours_truncate := (FiniteDouble.truncate_of_nonneg h_nonneg).trans hours_eq
    have minutes_truncate := (FiniteDouble.truncate_of_nonneg m_nonneg).trans minutes_eq
    rw [ofDouble_eq first second, hours_truncate, minutes_truncate]
  · have less := floor_restOver_lt x.toRat 60 (by decide : 0 < 60 * 60)
    rw [show 60 * 60 = 3600 from rfl, ← rest_eq, minutes_floor] at less
    exact_mod_cast less
  · rw [FiniteDouble.negative_toScaled, positive]
  · rw [FiniteDouble.toRat_toScaled, seconds_eq, rest_eq]
    exact restOver_restOver x.toRat 60 (by decide : 0 < 60)
  · have hours_floor : ⌊x.toRat / (3600 : Nat)⌋ = hours := by
      rw [← hours_eq, h_exact small, Int.floor_intCast]
    have apart := floor_restOver x.toRat 60 (by decide : 0 < 60)
    rw [show 60 * 60 = 3600 from rfl, ← rest_eq, minutes_floor, hours_floor] at apart
    have parts : (3600 * hours + 60 * minutes : Int) = 60 * ⌊x.toRat / (60 : Nat)⌋ := by omega
    rw [restOver, sub_sub_cancel]
    exact_mod_cast parts

/-- Only a finite double has a clock. -/
theorem ofDouble_isFinite {x : Double} {text : String} (written : ofDouble x = .ok text) :
    ∃ y, x = .finite y := by
  have endless (negative : Bool) : ofDouble (.infinite negative) = .error .nanToInteger := by
    cases negative <;> decide +kernel
  have unknown : ofDouble .nan = .error .nanToInteger := by
    decide +kernel
  cases x with
  | finite y => exact ⟨y, rfl⟩
  | infinite negative =>
    rw [endless] at written
    cases written
  | nan =>
    rw [unknown] at written
    cases written

end Clock

/-! ## The time left -/

namespace Progress

/-- The seconds left of a duration: those that have not elapsed, at the speed of the line. -/
def secondsLeft (progress : Progress) (duration : String) : Except Failure Double := do
  let total ← clockSeconds duration
  let elapsed ← clockSeconds (progress.time.getD "")
  let speed ← readReal (progress.speed.getD "").toList.dropLast
  return (total.sub elapsed).div speed

/-- There is time left when something remains and the speed, which is a zero without one, is positive. -/
theorem timeLeft_eq_some {remaining : Double} {speed : Option String} {text : String}
    (found : timeLeft remaining speed = .ok (some text)) :
    ∃ rate, readReal (speed.getD "").toList.dropLast = .ok rate ∧ remaining.isPositive = true ∧
      rate.isPositive = true ∧ Clock.ofDouble (remaining.div rate) = .ok text := by
  have positive (rate : Double) (found : (if remaining.isPositive && rate.isPositive then
        return some (← Clock.ofDouble (remaining.div rate))
      else return none : Except Failure (Option String)) = .ok (some text)) :
      remaining.isPositive = true ∧ rate.isPositive = true ∧
        Clock.ofDouble (remaining.div rate) = .ok text := by
    split at found
    · next both =>
      obtain ⟨clock, written, found⟩ := except_bind_eq_ok.1 found
      cases found
      rw [Bool.and_eq_true] at both
      exact ⟨both.1, both.2, written⟩
    · cases found
  unfold timeLeft at found
  cases speed with
  | none =>
    obtain ⟨-, zero_positive, -⟩ := positive (.zero false) found
    exact absurd (Double.isPositive_finite.1 zero_positive) (Double.toRat_zero false).not_gt
  | some shown =>
    obtain ⟨rate, read, found⟩ := except_bind_eq_ok.1 found
    exact ⟨rate, read, positive rate found⟩

theorem fields_eta {line : String} {progress : Progress} (read : fields line = .ok progress) :
    progress.eta = none := by
  simp only [fields] at read
  -- Whether there is a frame and a rate, the record is made at the end.
  split at read
  · split at read
    · cases read
      rfl
    · obtain ⟨frame, -, read⟩ := except_bind_eq_ok.1 read
      obtain ⟨fps, -, read⟩ := except_bind_eq_ok.1 read
      cases read
      rfl
  · obtain ⟨frame, -, read⟩ := except_bind_eq_ok.1 read
    split at read
    · cases read
      rfl
    · obtain ⟨fps, -, read⟩ := except_bind_eq_ok.1 read
      cases read
      rfl

/-- The time left on a line is the clock of the seconds left. -/
theorem ofLine_eta {line text : String} {duration : Option String} {progress : Progress}
    (read : ofLine line duration = .ok progress) (eta : progress.eta = some text) :
    ∃ total left, duration = some total ∧ progress.secondsLeft total = .ok (.finite left) ∧
      0 ≤ left.toRat ∧ Clock.ofDouble (.finite left) = .ok text := by
  unfold ofLine at read
  obtain ⟨known, found, read⟩ := except_bind_eq_ok.1 read
  have unknown := fields_eta found
  have other (same : (Except.ok known : Except Failure Progress) = .ok progress) : False := by
    cases same
    rw [unknown] at eta
    cases eta
  split at read
  · next total time given shown =>
    split at read
    · exact (other read).elim
    · obtain ⟨seconds, whole, read⟩ := except_bind_eq_ok.1 read
      split at read
      · exact (other read).elim
      · exact (other read).elim
      · obtain ⟨elapsed, past, read⟩ := except_bind_eq_ok.1 read
        obtain ⟨left, found, read⟩ := except_bind_eq_ok.1 read
        cases read
        have found : timeLeft (seconds.sub elapsed) known.speed = .ok (some text) :=
          found.trans (congrArg Except.ok eta)
        obtain ⟨rate, speed, remains, moves, written⟩ := timeLeft_eq_some found
        obtain ⟨left, finite⟩ := Clock.ofDouble_isFinite written
        refine ⟨total, left, rfl, ?_, Double.div_nonneg_of_positive remains moves finite, ?_⟩
        · simp only [secondsLeft, given, Option.getD_some, whole, past, speed]
          exact congrArg Except.ok finite
        · rw [← finite]
          exact written
  · exact (other read).elim

theorem ofLine_of_eta {line : String} {duration eta : Option String}
    (shown : (ofLine line duration).toOption.map (·.eta) = some eta) :
    ∃ progress, ofLine line duration = .ok progress ∧ progress.eta = eta := by
  cases read : ofLine line duration with
  | ok progress =>
    rw [read] at shown
    exact ⟨progress, rfl, Option.some_inj.1 shown⟩
  | error failure =>
    rw [read] at shown
    cases shown

end Progress

/-- The seconds that an integer or a finite double is. -/
def Value.seconds? : Value → Option Rat
  | .int n => some n
  | .float (.finite x) => some x.toRat
  | _ => none

theorem Clock.ofValue_split {value : Value} {s : Rat} (number : value.seconds? = some s)
    (nonneg : 0 ≤ s) (small : s < 2 ^ 53) : ∃ (hours minutes : Nat) (seconds : Scaled),
      ofValue value = .ok (clockText hours minutes seconds) ∧ Split s hours minutes seconds := by
  unfold Value.seconds? at number
  split at number
  · next n =>
    cases number
    have nonneg : 0 ≤ n := by exact_mod_cast nonneg
    obtain ⟨n, rfl⟩ := Int.eq_ofNat_of_zero_le nonneg
    have small : n < 2 ^ 53 := by exact_mod_cast small
    obtain ⟨hours, minutes, seconds, text, split⟩ := ofInt_split small
    exact ⟨hours, minutes, seconds, text, by rwa [Int.cast_natCast]⟩
  · next x =>
    cases number
    exact ofDouble_split nonneg
  · cases number

/-- The clock of a number has a face that reads back. -/
theorem Clock.ofValue_face {value : Value} {s : Rat} (number : value.seconds? = some s)
    (nonneg : 0 ≤ s) (small : s < 2 ^ 53) :
    ∃ face : ClockFace, ofValue value = .ok face.text ∧
      (face.IsValid ↔ restOver s 60 < 11999 / 200) ∧
      ∃ read : FiniteDouble, clockSeconds face.text = .ok (.finite read) ∧
        |read.toRat - s| ≤ 1 / 200 + read.step ∧ ∀ n : Int, s = n → read.toRat = s := by
  obtain ⟨hours, minutes, seconds, written, split⟩ := ofValue_split number nonneg small
  obtain ⟨read, reading, near, integers⟩ := split.face.clockSeconds_text
    (split.hours_length_le small) (split.whole_lt small)
  refine ⟨split.face, written.trans (congrArg Except.ok split.clockText_eq), split.isValid_iff,
    read, reading, ?_, fun n integer => ?_⟩
  · have rounded := split.near small
    calc |read.toRat - s| ≤ |read.toRat - split.face.time| + |split.face.time - s| :=
          abs_sub_le _ _ _
      _ ≤ 1 / 200 + read.step := by linarith
  · have few : n < 2 ^ 53 := by
      rw [integer] at small
      exact_mod_cast small
    exact (integers n few ((split.time_of_int small integer).trans integer)).trans integer.symm

/-- The time left on a line has a face, of any size. -/
theorem Progress.eta_face {line text : String} {duration : Option String} {progress : Progress}
    (read : ofLine line duration = .ok progress) (eta : progress.eta = some text) :
    ∃ total left, duration = some total ∧ progress.secondsLeft total = .ok (.finite left) ∧
      0 ≤ left.toRat ∧ ∃ face : ClockFace, text = face.text ∧
        (face.IsValid ↔ restOver left.toRat 60 < 11999 / 200) := by
  obtain ⟨total, left, given, found, nonneg, written⟩ := ofLine_eta read eta
  obtain ⟨hours, minutes, seconds, made, split⟩ := Clock.ofDouble_split nonneg
  rw [made, Except.ok.injEq] at written
  exact ⟨total, left, given, found, nonneg, split.face, written ▸ split.clockText_eq,
    split.isValid_iff⟩

/-- **Clocks are well formed and read back, except that the seconds are not carried.** The clock of an
integer or a double `s` has a face: two digits of hours or more, minutes below sixty, and seconds with
two places. It reads as `s` up to a half of the last place and a step of the result, whole seconds
exactly. The seconds are rounded when hours and minutes are known already, so they are below sixty
exactly when less than `59.995` of them are left over the full minutes. The same holds of the time left
on every progress line, of any size. -/
theorem clocks_read_back (value : Value) (s : Rat) (line text : String) (duration : Option String)
    (progress : Progress) :
    (value.seconds? = some s → 0 ≤ s → s < 2 ^ 53 →
      ∃ face : ClockFace, Clock.ofValue value = .ok face.text ∧
        (face.IsValid ↔ restOver s 60 < 11999 / 200) ∧
        ∃ read : FiniteDouble, clockSeconds face.text = .ok (.finite read) ∧
          |read.toRat - s| ≤ 1 / 200 + read.step ∧ ∀ n : Int, s = n → read.toRat = s) ∧
    (Progress.ofLine line duration = .ok progress → progress.eta = some text →
      ∃ total left, duration = some total ∧ progress.secondsLeft total = .ok (.finite left) ∧
        0 ≤ left.toRat ∧ ∃ face : ClockFace, text = face.text ∧
          (face.IsValid ↔ restOver left.toRat 60 < 11999 / 200)) :=
  ⟨Clock.ofValue_face, Progress.eta_face⟩

/-- An hour, a minute and a second; and thirty seconds left. -/
theorem clocks_read_back_hour :
    ((Value.int 3661).seconds? = some 3661 ∧ ∃ face : ClockFace,
      Clock.ofValue (.int 3661) = .ok face.text ∧ face.IsValid ∧ ∃ read : FiniteDouble,
        clockSeconds face.text = .ok (.finite read) ∧ read.toRat = 3661) ∧
    ∃ (progress : Progress) (left : FiniteDouble) (face : ClockFace),
      Progress.ofLine "time=00:00:30.00 speed=2x" (some "00:01:30.00") = .ok progress ∧
      progress.secondsLeft "00:01:30.00" = .ok (.finite left) ∧
      progress.eta = some "00:00:30.00" ∧ "00:00:30.00" = face.text := by
  have eta : (Progress.ofLine "time=00:00:30.00 speed=2x" (some "00:01:30.00")).toOption.map
      (·.eta) = some (some "00:00:30.00") := by
    decide +kernel
  obtain ⟨progress, read, eta⟩ := Progress.ofLine_of_eta eta
  obtain ⟨readsBack, shown⟩ := clocks_read_back (.int 3661) 3661 _ _ _ progress
  constructor
  · have rest : restOver 3661 60 < 11999 / 200 := by
      decide +kernel
    obtain ⟨face, written, valid, read, reading, -, whole⟩ :=
      readsBack rfl (by norm_num) (by norm_num)
    exact ⟨rfl, face, written, valid.2 rest, read, reading, whole 3661 rfl⟩
  · obtain ⟨total, left, given, found, -, face, text, -⟩ := shown read eta
    cases given
    exact ⟨progress, left, face, read, found, eta, text⟩

/-- The double that is read from `59.999`. -/
def FiniteDouble.nearMinute : FiniteDouble :=
  ⟨false, 8444108563831325, -47, by decide, by decide, by decide, .inl (by decide)⟩

/-- Not every clock is valid: of a number just below a minute and of such a time left, sixty seconds are
shown. -/
theorem clock_reaches_minute :
    Clock.ofValue (.float (.finite .nearMinute)) = .ok "00:00:60.00" ∧
    (Progress.ofLine "frame=1 time=00:00:00.001 speed=1x" (some "00:01:00.00")).toOption.map
      (·.eta) = some (some "00:00:60.00") ∧
    ∀ face : ClockFace, face.text = "00:00:60.00" → ¬face.IsValid := by
  refine ⟨by decide +kernel, by decide +kernel, fun face shown valid => ?_⟩
  have parts := face.splitAt_text
  rw [shown, face.toList_text_rest] at parts
  have rest : ['6', '0'] ++ '.' :: ['0', '0'] = face.seconds ++ '.' :: face.hundredths := by
    injection parts with _ parts
    injection parts with _ parts
    injection parts
  obtain ⟨seconds, -⟩ := List.append_inj rest (by rw [face.seconds_length]; rfl)
  rw [ClockFace.IsValid, ← seconds] at valid
  exact absurd valid (by decide)

end MediaCommand
