import MediaCommand.Progress.Line
import MediaCommand.Proofs.Action
import MediaCommand.Proofs.Text.Lines
import Mathlib.Data.List.TakeWhile

/-!
# Fields that convert

The frame and rate fields of a progress line are captured as digits of any script, the rate with
points among them. A captured frame is a whole number exactly when it has no more than `digitLimit`
digits (`readInteger_ofDigits`), a captured rate is a real number exactly when it has a digit and at
most one point (`real?_isSome_iff`). No other field is converted, so the two alone decide whether the
fields of a line can be read (`fields_isOk_iff`).
-/

namespace MediaCommand

/-- A digit of any script in the Latin one, and any other character as it is. -/
def latinDigit (c : Char) : Char :=
  match digitValue? c with
  | some value => Nat.digitChar value
  | none => c

theorem digitValue?_lt {c : Char} {value : Nat} (found : digitValue? c = some value) :
    value < 10 := by
  simp only [digitValue?, Option.map_eq_some_iff] at found
  obtain ⟨first, found, rfl⟩ := found
  have inside := List.find?_some found
  simp only [Bool.and_eq_true, decide_eq_true_eq] at inside
  omega

theorem isAsciiDigit_digitChar : ∀ value < 10, isAsciiDigit (Nat.digitChar value) = true := by
  decide

/-- The digits of the Latin script are among those of any script. -/
theorem isDigit_of_isAsciiDigit {c : Char} (digit : isAsciiDigit c = true) : isDigit c = true := by
  simp only [isAsciiDigit, Bool.and_eq_true, decide_eq_true_eq, Char.le_def,
    UInt32.le_iff_toNat_le] at digit
  have lower : 48 ≤ c.toNat := digit.1
  have upper : c.toNat ≤ 57 := digit.2
  simp [isDigit, digitValue?, digitZeros, lower, show c.toNat < 58 by omega]

@[simp] theorem isAsciiDigit_latinDigit (c : Char) : isAsciiDigit (latinDigit c) = isDigit c := by
  unfold latinDigit
  split
  next value found =>
    rw [isAsciiDigit_digitChar value (digitValue?_lt found), isDigit, found]
    rfl
  next missing =>
    have other : isDigit c = false := by simp [isDigit, missing]
    rw [other, Bool.eq_false_iff]
    intro digit
    rw [isDigit_of_isAsciiDigit digit] at other
    cases other

/-- No digit is a blank: the ranges of the two tables lie apart. -/
theorem isBlank_of_isDigit {c : Char} (digit : isDigit c = true) : isBlank c = false := by
  have apart : ∀ first ∈ digitZeros, ∀ range ∈ blanks, first + 10 ≤ range.1 ∨ range.2 < first := by
    decide
  obtain ⟨value, found⟩ := Option.isSome_iff_exists.1 digit
  simp only [digitValue?, Option.map_eq_some_iff] at found
  obtain ⟨first, found, -⟩ := found
  have inside := List.find?_some found
  simp only [Bool.and_eq_true, decide_eq_true_eq] at inside
  rw [isBlank, Bool.eq_false_iff, Ne, CharacterSet.has_iff]
  rintro ⟨range, listed, within⟩
  have := apart first (List.mem_of_find?_eq_some found) range listed
  omega

/-- A character of a captured numeral. -/
def IsNumeral (c : Char) : Prop := isDigit c = true ∨ c = '.'

instance (c : Char) : Decidable (IsNumeral c) := inferInstanceAs (Decidable (_ ∨ _))

variable {text : List Char}

/-- Between no blanks there is the whole numeral. -/
theorem numeralBody_eq (numeral : ∀ c ∈ text, IsNumeral c) :
    numeralBody text = text.map latinDigit := by
  rw [numeralBody, trimBy_of_none]
  · rfl
  · intro c mem
    have solid : isBlank c = false := by
      rcases numeral c mem with digit | rfl
      · exact isBlank_of_isDigit digit
      · decide
    simp [isNumeralBlank, solid]

theorem dropUnderscores?_eq (before : Option Char) (first : before ≠ some '_')
    (without : ∀ c ∈ text, c ≠ '_') : dropUnderscores? before text = some text := by
  induction text generalizing before with
  | nil => simp [dropUnderscores?, first]
  | cons c rest ih =>
    have here := without c List.mem_cons_self
    have behind := ih (some c) (by simpa using here) fun d mem =>
      without d (List.mem_cons_of_mem c mem)
    simp [dropUnderscores?, here, first, behind]

theorem takeSign_eq (without : ∀ c ∈ text, c ≠ '-' ∧ c ≠ '+') : takeSign text = (false, text) := by
  unfold takeSign
  split
  · exact absurd rfl (without '-' List.mem_cons_self).1
  · exact absurd rfl (without '+' List.mem_cons_self).2
  · rfl

theorem latin_numeral (numeral : ∀ c ∈ text, IsNumeral c) :
    ∀ c ∈ text.map latinDigit, isAsciiDigit c = true ∨ c = '.' := by
  intro c mem
  obtain ⟨d, there, rfl⟩ := List.mem_map.1 mem
  rcases numeral d there with digit | rfl
  · exact .inl (by simpa using digit)
  · exact .inr (by decide)

/-- The Latin numeral has neither underscores nor a sign, so it is taken as it stands. -/
theorem numeral_whole (numeral : ∀ c ∈ text, IsNumeral c) :
    dropUnderscores? none (text.map latinDigit) = some (text.map latinDigit) ∧
      takeSign (text.map latinDigit) = (false, text.map latinDigit) := by
  have latin := latin_numeral numeral
  constructor
  · refine dropUnderscores?_eq none (by simp) fun c mem => ?_
    rintro rfl
    exact absurd (latin '_' mem) (by decide)
  · refine takeSign_eq fun c mem => ⟨?_, ?_⟩
    · rintro rfl
      exact absurd (latin '-' mem) (by decide)
    · rintro rfl
      exact absurd (latin '+' mem) (by decide)

/-- Digits of any script are the whole number that their Latin ones make, unless they are too
many. -/
theorem integer?_ofDigits (digits : ∀ c ∈ text, isDigit c = true) (nonempty : text ≠ []) :
    integer? text = if text.length ≤ digitLimit then
      some (digitsValue (text.map latinDigit) : Int) else none := by
  have numeral : ∀ c ∈ text, IsNumeral c := fun c mem => .inl (digits c mem)
  obtain ⟨body, sign⟩ := numeral_whole numeral
  have magnitude : natural? (text.map latinDigit) =
      some (digitsValue (text.map latinDigit)) := by
    simpa [natural?, nonempty] using digits
  by_cases few : text.length ≤ digitLimit
  · simp [integer?, numeralBody_eq numeral, body, sign, magnitude, few, Nat.not_lt.2 few]
  · simp [integer?, numeralBody_eq numeral, body, sign, magnitude, few, Nat.not_le.1 few]

theorem overlong?_ofDigits (digits : ∀ c ∈ text, isDigit c = true) :
    overlong? text = if text.length ≤ digitLimit then none else some text.length := by
  have numeral : ∀ c ∈ text, IsNumeral c := fun c mem => .inl (digits c mem)
  obtain ⟨body, sign⟩ := numeral_whole numeral
  have whole : (text.map latinDigit).takeWhile (fun c => isAsciiDigit c || c == '_') =
      text.map latinDigit := by
    refine List.takeWhile_eq_self_iff.2 fun c mem => ?_
    obtain ⟨d, there, rfl⟩ := List.mem_map.1 mem
    simp [digits d there]
  rw [overlong?, numeralBody_eq numeral, sign, whole, body]
  by_cases few : text.length ≤ digitLimit
  · simp [few, Nat.not_lt.2 few]
  · simp [few, Nat.not_le.1 few]

/-- Reading digits of any script fails for their number alone. -/
theorem readInteger_ofDigits (digits : ∀ c ∈ text, isDigit c = true) (nonempty : text ≠ []) :
    readInteger text = if text.length ≤ digitLimit then
      .ok (digitsValue (text.map latinDigit) : Int) else .error (.numeralTooLong text.length) := by
  rw [readInteger, integer?_ofDigits digits nonempty, overlong?_ofDigits digits]
  by_cases few : text.length ≤ digitLimit
  · simp only [if_pos few]
  · simp only [if_neg few]

/-- The digits that a Latin numeral begins with end with the text or in front of a point. -/
theorem leadingDigits (numeral : ∀ c ∈ text, isAsciiDigit c = true ∨ c = '.') :
    ∃ whole rest, text = whole ++ rest ∧ text.takeWhile isAsciiDigit = whole ∧
      text.dropWhile isAsciiDigit = rest ∧ (∀ c ∈ whole, isAsciiDigit c = true) ∧
      (rest = [] ∨ ∃ tail, rest = '.' :: tail) := by
  refine ⟨_, _, List.takeWhile_append_dropWhile.symm, rfl, rfl, fun c mem => ?_, ?_⟩
  · exact List.all_eq_true.1 List.all_takeWhile c mem
  · cases found : text.dropWhile isAsciiDigit with
    | nil => exact .inl rfl
    | cons c tail =>
      have other := List.head?_dropWhile_not isAsciiDigit text
      have mem : c ∈ text := (List.dropWhile_sublist isAsciiDigit).mem (by simp [found])
      rw [found] at other
      rcases numeral c mem with digit | rfl
      · simp [digit] at other
      · exact .inr ⟨tail, rfl⟩

theorem count_point_of_digits (digits : ∀ c ∈ text, isAsciiDigit c = true) :
    text.count '.' = 0 := by
  rw [List.count_eq_zero]
  intro mem
  exact absurd (digits '.' mem) (by decide)

theorem exists_digit_iff (digits : ∀ c ∈ text, isAsciiDigit c = true) :
    (∃ c ∈ text, isAsciiDigit c = true) ↔ text ≠ [] := by
  constructor
  · rintro ⟨c, mem, -⟩ rfl
    cases mem
  · intro some
    obtain ⟨c, mem⟩ := List.exists_mem_of_ne_nil text some
    exact ⟨c, mem, digits c mem⟩

/-- Latin digits with points are a scaled number when they have a digit and at most one point. -/
theorem scaled?_isSome_iff (negative : Bool)
    (numeral : ∀ c ∈ text, isAsciiDigit c = true ∨ c = '.') :
    (scaled? negative text).isSome = true ↔
      (∃ c ∈ text, isAsciiDigit c = true) ∧ text.count '.' ≤ 1 := by
  obtain ⟨whole, rest, rfl, taken, dropped, digits, ends⟩ := leadingDigits numeral
  rw [scaled?, taken, dropped]
  rcases ends with rfl | ⟨tail, rfl⟩
  · have none := count_point_of_digits digits
    simp [none, exists_digit_iff digits]
  · have behind : ∀ c ∈ tail, isAsciiDigit c = true ∨ c = '.' := fun c mem =>
      numeral c (List.mem_append_right whole (List.mem_cons_of_mem '.' mem))
    obtain ⟨fraction, further, rfl, taken, dropped, decimals, ends⟩ := leadingDigits behind
    have first := count_point_of_digits digits
    have second := count_point_of_digits decimals
    rcases ends with rfl | ⟨last, rfl⟩
    · have someDigit : (∃ c ∈ whole ++ '.' :: (fraction ++ []), isAsciiDigit c = true) ↔
          whole ≠ [] ∨ fraction ≠ [] := by
        have point : isAsciiDigit '.' = false := by decide
        rw [← exists_digit_iff digits, ← exists_digit_iff decimals]
        simp [or_and_right, exists_or, point]
      rw [List.append_nil] at taken dropped
      rw [someDigit]
      by_cases bare : whole = []
      · simp [taken, dropped, second, bare]
      · simp [taken, dropped, first, second, bare]
    · simp [taken, dropped, first, second]

/-- A Latin numeral spells no word with an `n`. -/
theorem numeral_ne_word (numeral : ∀ c ∈ text, isAsciiDigit c = true ∨ c = '.') {word : String}
    (spelled : 'n' ∈ word.toList) : String.ofList (text.map Char.toLower) ≠ word := by
  rintro rfl
  simp only [String.toList_ofList, List.mem_map] at spelled
  obtain ⟨c, mem, lower⟩ := spelled
  rcases numeral c mem with digit | rfl
  · simp only [isAsciiDigit, Bool.and_eq_true, decide_eq_true_eq, Char.le_def,
      UInt32.le_iff_toNat_le] at digit
    have upper : c.val.toNat ≤ 57 := digit.2
    unfold Char.toLower at lower
    split at lower
    next capital =>
      have above : 65 ≤ c.val.toNat := UInt32.le_iff_toNat_le.1 capital.1
      omega
    next =>
      subst lower
      exact absurd upper (by decide)
  · exact absurd lower (by decide)

theorem latinDigit_eq_point_iff (c : Char) : latinDigit c = '.' ↔ c = '.' := by
  constructor
  · unfold latinDigit
    split
    next value found =>
      intro point
      have digit := isAsciiDigit_digitChar value (digitValue?_lt found)
      rw [point] at digit
      exact absurd digit (by decide)
    next => exact id
  · rintro rfl
    decide

/-- Digits of any script with points are the real number that their Latin ones make. -/
theorem real?_numeral (numeral : ∀ c ∈ text, IsNumeral c) :
    real? text = (scaled? false (text.map latinDigit)).map Double.ofScaled := by
  obtain ⟨body, sign⟩ := numeral_whole numeral
  have latin := latin_numeral numeral
  simp only [real?, numeralBody_eq numeral, body, sign, Option.bind_eq_bind, Option.bind_some]
  split
  next word => exact absurd word (numeral_ne_word latin (by decide))
  next word => exact absurd word (numeral_ne_word latin (by decide))
  next word => exact absurd word (numeral_ne_word latin (by decide))
  next => cases scaled? false (text.map latinDigit) <;> rfl

/-- Digits of any script with points are a real number when they have a digit and at most one
point. -/
theorem real?_isSome_iff (numeral : ∀ c ∈ text, IsNumeral c) :
    (real? text).isSome = true ↔ (∃ c ∈ text, isDigit c = true) ∧ text.count '.' ≤ 1 := by
  have latin := latin_numeral numeral
  have points : (text.map latinDigit).count '.' = text.count '.' := by
    rw [List.count_eq_countP, List.count_eq_countP, List.countP_map]
    refine List.countP_congr fun c _ => ?_
    simpa using latinDigit_eq_point_iff c
  have digits : (∃ c ∈ text.map latinDigit, isAsciiDigit c = true) ↔
      ∃ c ∈ text, isDigit c = true := by
    constructor
    · rintro ⟨_, mem, digit⟩
      obtain ⟨c, there, rfl⟩ := List.mem_map.1 mem
      exact ⟨c, there, by simpa using digit⟩
    · rintro ⟨c, mem, digit⟩
      exact ⟨latinDigit c, List.mem_map_of_mem mem, by simpa using digit⟩
  rw [real?_numeral numeral, Option.isSome_map, scaled?_isSome_iff false latin, points, digits]

theorem readInteger_eq_ok {n : Int} :
    readInteger text = .ok n ↔ integer? text = some n := by
  unfold readInteger
  cases integer? text with
  | some m => simp
  | none => cases overlong? text <;> simp

theorem readReal_eq_ok {x : Double} :
    readReal text = .ok x ↔ real? text = some x := by
  unfold readReal
  cases real? text <;> simp

/-! ## Captures -/

namespace FieldPattern

variable {pattern : FieldPattern} {value : List Char}

/-- A field without a mark at its end captures characters of its class, and at least one. -/
theorem here?_eq_some (unmarked : pattern.closing = none)
    (found : pattern.here? text = some value) :
    value ≠ [] ∧ ∀ c ∈ value, pattern.accepts c = true := by
  unfold here? at found
  split at found
  next => cases found
  next rest _ =>
    simp only [unmarked] at found
    split at found
    next => cases found
    next some =>
      cases found
      refine ⟨by simpa using some, fun c mem => ?_⟩
      exact List.all_eq_true.1 List.all_takeWhile c mem

theorem find?_eq_some (unmarked : pattern.closing = none)
    (found : pattern.find? text = some value) :
    value ≠ [] ∧ ∀ c ∈ value, pattern.accepts c = true := by
  induction text with
  | nil => exact here?_eq_some unmarked found
  | cons c rest ih =>
    rcases Option.or_eq_some_iff.1 found with here | ⟨-, later⟩
    · exact here?_eq_some unmarked here
    · exact ih later

end FieldPattern

namespace Progress

/-- Without a duration nothing but the fields of a line is read. -/
theorem ofLine_none (line : String) : ofLine line none = fields line := by
  rw [ofLine]
  cases fields line <;> rfl

theorem frame_isOk_iff {line : String} {digits : List Char}
    (found : FieldPattern.frame.find? line.toList = some digits) :
    (∃ n, readInteger digits = .ok n) ↔ digits.length ≤ digitLimit := by
  obtain ⟨nonempty, accepted⟩ := FieldPattern.find?_eq_some rfl found
  rw [readInteger_ofDigits accepted nonempty]
  split
  · next few => exact iff_of_true ⟨_, rfl⟩ few
  · next many => exact iff_of_false (fun ⟨_, read⟩ => by cases read) many

theorem rate_isOk_iff {line : String} {rate : List Char}
    (found : FieldPattern.fps.find? line.toList = some rate) :
    (∃ x, readReal rate = .ok x) ↔ (∃ c ∈ rate, isDigit c = true) ∧ rate.count '.' ≤ 1 := by
  obtain ⟨-, accepted⟩ := FieldPattern.find?_eq_some rfl found
  have numeral : ∀ c ∈ rate, IsNumeral c := by
    intro c mem
    have classed : (isDigit c || c == '.') = true := accepted c mem
    simpa [IsNumeral] using classed
  rw [← real?_isSome_iff numeral, readReal]
  cases real? rate <;> simp

/-- The fields of a line can be read exactly when its frame, if it has one, is not too long and its
rate, if it has one, has a digit and at most one point. -/
theorem fields_isOk_iff (line : String) :
    (∃ progress, fields line = .ok progress) ↔
      (∀ digits, FieldPattern.frame.find? line.toList = some digits →
        digits.length ≤ digitLimit) ∧
      ∀ rate, FieldPattern.fps.find? line.toList = some rate →
        (∃ c ∈ rate, isDigit c = true) ∧ rate.count '.' ≤ 1 := by
  have converts : (∃ progress, fields line = .ok progress) ↔
      (∀ digits, FieldPattern.frame.find? line.toList = some digits →
        ∃ n, readInteger digits = .ok n) ∧
      ∀ rate, FieldPattern.fps.find? line.toList = some rate → ∃ x, readReal rate = .ok x := by
    cases framed : FieldPattern.frame.find? line.toList with
    | none =>
      cases rated : FieldPattern.fps.find? line.toList with
      | none => simp [fields, framed, rated, bind, Except.bind, pure, Except.pure]
      | some rate => cases second : readReal rate <;>
          simp [fields, framed, rated, second, Functor.map, Except.map]
    | some digits =>
      cases rated : FieldPattern.fps.find? line.toList with
      | none => cases first : readInteger digits <;>
          simp [fields, framed, rated, first, bind, Except.bind, pure, Except.pure, Functor.map,
            Except.map]
      | some rate => cases first : readInteger digits <;> cases second : readReal rate <;>
          simp [fields, framed, rated, first, second, bind, Except.bind, pure, Except.pure,
            Functor.map, Except.map]
  rw [converts]
  refine and_congr ?_ ?_
  · exact forall₂_congr fun _ found => frame_isOk_iff found
  · exact forall₂_congr fun _ found => rate_isOk_iff found

end Progress

end MediaCommand
