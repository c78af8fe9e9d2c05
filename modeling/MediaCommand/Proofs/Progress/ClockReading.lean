import MediaCommand.Proofs.Action
import MediaCommand.Proofs.Progress.ClockFace

/-!
# Clocks that are read

A `WrittenClock` is digits of hours and of minutes and a decimal number of seconds, between colons. It
is read as the seconds that it makes, unless they are too many or their digits are
(`WrittenClock.clockSeconds_eq_ok_iff`), and a text with other than two colons as zero. All other
texts should count as zero, too, but their parts are read as numbers all the same, which fails or
makes some other number; `clock_counts_iff` says which texts count as they should.
-/

namespace MediaCommand

/-! ## Integers -/

/-- Digits and points that are read as a whole number are digits. -/
theorem digits_of_isSome {text : List Char} (numeral : ∀ c ∈ text, IsNumeral c)
    (reads : (integer? text).isSome = true) : text ≠ [] ∧ ∀ c ∈ text, isDigit c = true := by
  obtain ⟨body, sign⟩ := numeral_whole numeral
  simp only [integer?, numeralBody_eq numeral, body, sign, Option.bind_eq_bind,
    Option.bind_some, natural?] at reads
  by_cases only : text.map latinDigit ≠ [] ∧ (text.map latinDigit).all isAsciiDigit
  · simpa using only
  · rw [if_neg only] at reads
    cases reads

theorem Double.ofInt?_eq_ok_iff {n : Int} {x : Double} :
    Double.ofInt? n = .ok x ↔ n.natAbs < Double.overflow ∧ x = Double.ofInt n := by
  rcases Double.ofInt_cases n with ⟨within, y, value⟩ | ⟨beyond, value⟩
  · simp only [Double.ofInt?, value, within, true_and, Except.ok.injEq]
    exact eq_comm
  · simp only [Double.ofInt?, value, reduceCtorEq, false_iff]
    omega

/-! ## Clocks as they are written -/

/-- A clock of three parts is read when its parts are and the seconds of its hours and minutes are a
double. -/
theorem clockSeconds_eq_ok_iff {clock : String} {hours minutes seconds : List Char} {x : Double}
    (parts : splitAt ':' clock.toList = [hours, minutes, seconds]) :
    clockSeconds clock = .ok x ↔ ∃ h m s, integer? hours = some h ∧ integer? minutes = some m ∧
      real? seconds = some s ∧ (h * 3600 + m * 60).natAbs < Double.overflow ∧
        x = (Double.ofInt (h * 3600 + m * 60)).add s := by
  constructor
  · intro read
    simp only [clockSeconds, parts] at read
    obtain ⟨h, hour, read⟩ := except_bind_eq_ok.1 read
    obtain ⟨m, minute, read⟩ := except_bind_eq_ok.1 read
    obtain ⟨s, second, read⟩ := except_bind_eq_ok.1 read
    obtain ⟨whole, made, sum⟩ := except_bind_eq_ok.1 read
    obtain ⟨within, rfl⟩ := Double.ofInt?_eq_ok_iff.1 made
    cases sum
    exact ⟨h, m, s, readInteger_eq_ok.1 hour, readInteger_eq_ok.1 minute, readReal_eq_ok.1 second,
      within, rfl⟩
  · rintro ⟨h, m, s, hour, minute, second, within, rfl⟩
    rw [clockSeconds_of_parts parts hour minute second,
      (Double.ofInt?_eq_ok_iff).2 ⟨within, rfl⟩]
    rfl

/-- Digits of hours and of minutes, and a decimal number of seconds. -/
structure WrittenClock where
  hours : List Char
  minutes : List Char
  seconds : WrittenNumber
  digits : ∀ c ∈ hours ++ minutes, isDigit c = true
  hours_ne_nil : hours ≠ []
  minutes_ne_nil : minutes ≠ []

namespace WrittenClock

def text (clock : WrittenClock) : String :=
  String.ofList (clock.hours ++ ':' :: (clock.minutes ++ ':' :: clock.seconds.characters))

/-- The seconds of the hours and minutes. -/
def whole (clock : WrittenClock) : Nat :=
  3600 * digitsValue (clock.hours.map latinDigit) + 60 * digitsValue (clock.minutes.map latinDigit)

/-- Hours and minutes have no more digits than can be read, and their seconds are a double. -/
structure IsReadable (clock : WrittenClock) : Prop where
  hours_length_le : clock.hours.length ≤ digitLimit
  minutes_length_le : clock.minutes.length ≤ digitLimit
  whole_lt : clock.whole < Double.overflow

/-- The seconds that the clock shows, added up as doubles. -/
def time (clock : WrittenClock) : Double :=
  (Double.ofInt clock.whole).add (.ofScaled clock.seconds.value)

theorem splitAt_text (clock : WrittenClock) :
    splitAt ':' clock.text.toList = [clock.hours, clock.minutes, clock.seconds.characters] := by
  have apart (c : Char) (numeral : IsNumeral c) : c ≠ ':' := by
    rintro rfl
    rcases numeral with digit | point
    · exact absurd digit (by decide)
    · exact absurd point (by decide)
  have hours : ∀ c ∈ clock.hours, c ≠ ':' := fun c mem =>
    apart c (.inl (clock.digits c (List.mem_append_left _ mem)))
  have minutes : ∀ c ∈ clock.minutes, c ≠ ':' := fun c mem =>
    apart c (.inl (clock.digits c (List.mem_append_right _ mem)))
  have seconds : ∀ c ∈ clock.seconds.characters, c ≠ ':' := fun c mem =>
    apart c (clock.seconds.numeral c mem)
  rw [text, String.toList_ofList, splitAt_append hours, splitAt_append minutes,
    splitAt_of_notMem seconds]

/-- A clock is read as the seconds that it shows, if it can be read. -/
theorem clockSeconds_eq_ok_iff (clock : WrittenClock) {x : Double} :
    clockSeconds clock.text = .ok x ↔ clock.IsReadable ∧ x = clock.time := by
  have hours := integer?_ofDigits (fun c mem => clock.digits c (List.mem_append_left _ mem))
    clock.hours_ne_nil
  have minutes := integer?_ofDigits (fun c mem => clock.digits c (List.mem_append_right _ mem))
    clock.minutes_ne_nil
  have seconds := clock.seconds.real?_characters
  have sum : (digitsValue (clock.hours.map latinDigit) : Int) * 3600 +
      (digitsValue (clock.minutes.map latinDigit) : Int) * 60 = (clock.whole : Int) := by
    rw [whole]
    push_cast
    ring
  rw [MediaCommand.clockSeconds_eq_ok_iff clock.splitAt_text]
  constructor
  · rintro ⟨h, m, s, hour, minute, second, within, rfl⟩
    rw [hours, Option.ite_none_right_eq_some, Option.some_inj] at hour
    rw [minutes, Option.ite_none_right_eq_some, Option.some_inj] at minute
    rw [seconds, Option.some_inj] at second
    obtain ⟨hours_few, rfl⟩ := hour
    obtain ⟨minutes_few, rfl⟩ := minute
    subst second
    rw [sum] at within ⊢
    exact ⟨⟨hours_few, minutes_few, within⟩, rfl⟩
  · rintro ⟨⟨hours_few, minutes_few, within⟩, rfl⟩
    rw [if_pos hours_few] at hours
    rw [if_pos minutes_few] at minutes
    refine ⟨_, _, _, hours, minutes, seconds, ?_, ?_⟩
    · rw [sum]
      exact within
    · rw [sum]
      rfl

/-- Digits, points and colons that are read as a clock are one. -/
theorem exists_of_parts {clock : String} {hours minutes seconds : List Char}
    (parts : splitAt ':' clock.toList = [hours, minutes, seconds])
    (known : ∀ c ∈ clock.toList, IsNumeral c ∨ c = ':') (hour : (integer? hours).isSome = true)
    (minute : (integer? minutes).isSome = true) (second : (real? seconds).isSome = true) :
    ∃ written : WrittenClock, written.text = clock := by
  obtain ⟨joined, apart⟩ := splitAt_parts parts
  have shown : clock.toList = hours ++ ':' :: (minutes ++ ':' :: seconds) := by
    rw [← joined]
    simp [List.intercalate]
  have numeral (part : List Char) (mem : part ∈ [hours, minutes, seconds]) :
      ∀ c ∈ part, IsNumeral c := by
    intro c inside
    have there : c ∈ clock.toList := by
      rw [shown]
      simp only [List.mem_cons, List.not_mem_nil, or_false] at mem
      rcases mem with rfl | rfl | rfl <;> simp [inside]
    refine (known c there).resolve_right ?_
    rintro rfl
    exact apart part mem inside
  obtain ⟨hours_ne_nil, hours_digits⟩ := digits_of_isSome (numeral hours (by simp)) hour
  obtain ⟨minutes_ne_nil, minutes_digits⟩ := digits_of_isSome (numeral minutes (by simp)) minute
  obtain ⟨number, rfl⟩ := WrittenNumber.exists_of_isSome (numeral seconds (by simp)) second
  have digits : ∀ c ∈ hours ++ minutes, isDigit c = true := by
    intro c mem
    rcases List.mem_append.1 mem with mem | mem
    · exact hours_digits c mem
    · exact minutes_digits c mem
  refine ⟨⟨hours, minutes, number, digits, hours_ne_nil, minutes_ne_nil⟩, ?_⟩
  rw [text, ← shown, String.ofList_toList]

end WrittenClock

namespace Clock

/-- A text counts as the seconds that it shows if it is a written clock, and otherwise as zero. -/
def Counts (clock : String) : Prop :=
  ∃ x, clockSeconds clock = .ok x ∧
    (∀ written : WrittenClock, written.text = clock → x = written.time) ∧
    ((∀ written : WrittenClock, written.text ≠ clock) → x = .zero false)

/-- Three parts in the notations of all integers and real numbers, with signs, blanks, underscores and
powers of ten, that add up to zero. -/
def AddsToZero (clock : String) : Prop :=
  ∃ hours minutes seconds h m s, splitAt ':' clock.toList = [hours, minutes, seconds] ∧
    integer? hours = some h ∧ integer? minutes = some m ∧ real? seconds = some s ∧
    (h * 3600 + m * 60).natAbs < Double.overflow ∧
    (Double.ofInt (h * 3600 + m * 60)).add s = .zero false

variable {clock : String}

theorem counts_of_written (written : WrittenClock) (readable : written.IsReadable) :
    Counts written.text := by
  have read := written.clockSeconds_eq_ok_iff.2 ⟨readable, rfl⟩
  refine ⟨written.time, read, fun other same => ?_, fun none => absurd rfl (none written)⟩
  rw [← same] at read
  exact (other.clockSeconds_eq_ok_iff.1 read).2

theorem counts_of_zero (zero : clockSeconds clock = .ok (.zero false)) : Counts clock := by
  refine ⟨.zero false, zero, ?_, fun _ => rfl⟩
  rintro written rfl
  exact (written.clockSeconds_eq_ok_iff.1 zero).2

theorem clockSeconds_of_count (other : clock.toList.count ':' ≠ 2) :
    clockSeconds clock = .ok (.zero false) := by
  have parts := length_splitAt ':' clock.toList
  unfold clockSeconds
  split
  · next three =>
    rw [three] at parts
    simp only [List.length_cons, List.length_nil] at parts
    omega
  · rfl

/-- These are the texts with two colons that are read as zero. -/
theorem addsToZero_iff (clock : String) :
    AddsToZero clock ↔ clock.toList.count ':' = 2 ∧ clockSeconds clock = .ok (.zero false) := by
  have number := length_splitAt ':' clock.toList
  constructor
  · rintro ⟨hours, minutes, seconds, h, m, s, parts, hour, minute, second, within, sum⟩
    constructor
    · rw [parts] at number
      simp only [List.length_cons, List.length_nil] at number
      omega
    · exact (clockSeconds_eq_ok_iff parts).2 ⟨h, m, s, hour, minute, second, within, sum.symm⟩
  · rintro ⟨colons, zero⟩
    rw [colons] at number
    obtain ⟨hours, minutes, seconds, parts⟩ := List.length_eq_three.1 number
    obtain ⟨h, m, s, hour, minute, second, within, sum⟩ := (clockSeconds_eq_ok_iff parts).1 zero
    exact ⟨hours, minutes, seconds, h, m, s, parts, hour, minute, second, within, sum.symm⟩

/-- Written with nothing but digits, points and colons they are clocks. -/
theorem AddsToZero.written (zero : AddsToZero clock)
    (known : ∀ c ∈ clock.toList, IsNumeral c ∨ c = ':') :
    ∃ written : WrittenClock, written.text = clock ∧ written.IsReadable := by
  have read := ((addsToZero_iff clock).1 zero).2
  obtain ⟨hours, minutes, seconds, h, m, s, parts, hour, minute, second, -⟩ := zero
  obtain ⟨written, rfl⟩ := WrittenClock.exists_of_parts parts known (Option.isSome_of_eq_some hour)
    (Option.isSome_of_eq_some minute) (Option.isSome_of_eq_some second)
  exact ⟨written, rfl, (written.clockSeconds_eq_ok_iff.1 read).1⟩

end Clock

open Clock in
/-- **Which clocks count as they should.** A text does if it has other than two colons, is a written
clock whose hours and minutes are not too long and lie within the doubles, or has three parts that
add up to zero in notations that no written clock has. Every other text, and with it every other one
of digits, points and colons, as the fields of progress lines are, ends in a failure or counts as
something else. -/
theorem clock_counts_iff (clock : String) :
    (Counts clock ↔ clock.toList.count ':' ≠ 2 ∨
      (∃ written : WrittenClock, written.text = clock ∧ written.IsReadable) ∨
      AddsToZero clock) ∧
    ((∀ c ∈ clock.toList, IsNumeral c ∨ c = ':') →
      (Counts clock ↔ clock.toList.count ':' ≠ 2 ∨
        ∃ written : WrittenClock, written.text = clock ∧ written.IsReadable)) := by
  have all : Counts clock ↔ clock.toList.count ':' ≠ 2 ∨
      (∃ written : WrittenClock, written.text = clock ∧ written.IsReadable) ∨
      AddsToZero clock := by
    constructor
    · rintro ⟨x, read, -, other⟩
      by_cases colons : clock.toList.count ':' = 2
      · right
        by_cases written : ∃ written : WrittenClock, written.text = clock
        · obtain ⟨written, rfl⟩ := written
          exact .inl ⟨written, rfl, (written.clockSeconds_eq_ok_iff.1 read).1⟩
        · have zero := other fun clock same => written ⟨clock, same⟩
          subst zero
          exact .inr ((addsToZero_iff clock).2 ⟨colons, read⟩)
      · exact .inl colons
    · rintro (other | ⟨written, rfl, readable⟩ | zero)
      · exact counts_of_zero (clockSeconds_of_count other)
      · exact counts_of_written written readable
      · exact counts_of_zero ((addsToZero_iff clock).1 zero).2
  refine ⟨all, fun known => all.trans (or_congr_right ?_)⟩
  exact or_iff_left_of_imp fun zero => zero.written known

open Clock in
/-- A clock with nothing between its colons should be zero and is a failure. -/
theorem clock_counts_gap :
    (∀ c ∈ "1::2".toList, IsNumeral c ∨ c = ':') ∧ ¬Counts "1::2" := by
  have known : ∀ c ∈ "1::2".toList, IsNumeral c ∨ c = ':' := by simp; decide
  refine ⟨known, fun counts => ?_⟩
  rcases ((clock_counts_iff "1::2").2 known).1 counts with colons | ⟨written, same, -⟩
  · exact colons (by decide)
  · have parts := written.splitAt_text
    rw [same, show splitAt ':' "1::2".toList = [['1'], [], ['2']] by decide] at parts
    injection parts with _ parts
    injection parts with minutes _
    exact written.minutes_ne_nil minutes.symm

/-- Malformed clocks, and a progress line with one, end in a failure. -/
theorem clock_malformed_fails :
    clockSeconds "aa:bb:cc" = .error (.notInteger "aa") ∧
      clockSeconds "1:2:3.4.5" = .error (.notReal "3.4.5") ∧
      Progress.ofLine "frame=1 time=::" (some "00:01:00") = .error (.notInteger "") := by
  refine ⟨?_, ?_, ?_⟩
  · exact except_eq_error (by decide +kernel)
  · exact except_eq_error (by decide +kernel)
  · exact except_eq_error (by decide +kernel)

end MediaCommand
