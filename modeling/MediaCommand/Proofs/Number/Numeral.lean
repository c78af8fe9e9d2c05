import MediaCommand.Proofs.Number.Range
import MediaCommand.Proofs.Progress.Fields

/-!
# Numerals that read back

The digits of a number read as that number, also behind others and behind zeros. A `WrittenNumber` is
digits of any script, perhaps around a point, and reads as the real number that they make
(`WrittenNumber.real?_characters`). A `PlainNumeral` is a sign, Latin digits and perhaps a point with
more digits; as a decimal and as a real number it reads as the number that its digits make
(`PlainNumeral.decimal?_text`, `PlainNumeral.real?_text`).
-/

namespace MediaCommand

/-! ## Digits -/

theorem isAsciiDigit_of_mem_decimalDigits {n : Nat} {c : Char} (mem : c ∈ decimalDigits n) :
    isAsciiDigit c = true := by
  exact Nat.isDigit_of_mem_toDigits (by decide) (by decide) mem

/-- A numeral of a positive number has no zero in front. -/
theorem head?_decimalDigits {n : Nat} (pos : 0 < n) : (decimalDigits n).head? ≠ some '0' := by
  induction n using Nat.strongRecOn with
  | ind n ih =>
    rw [decimalDigits, Nat.toDigits_eq_if (by decide)]
    split
    · next few =>
      have digit : ∀ n < 10, 0 < n → n.digitChar ≠ '0' := by decide
      simpa using digit n few pos
    · next many =>
      rw [List.head?_append_of_ne_nil _ Nat.toDigits_ne_nil]
      exact ih (n / 10) (by omega) (by omega)

theorem length_paddedDigits {width n : Nat} (pos : 0 < width) (fits : n < 10 ^ width) :
    (paddedDigits width n).length = width := by
  have few : digitCount n ≤ width := (digitCount_le_iff pos).2 fits
  rw [digitCount] at few
  rw [paddedDigits, List.length_append, List.length_replicate]
  omega

theorem mem_paddedDigits {width n : Nat} {c : Char} (mem : c ∈ paddedDigits width n) :
    isAsciiDigit c = true := by
  rw [paddedDigits, List.mem_append] at mem
  rcases mem with zero | digit
  · rw [List.eq_of_mem_replicate zero]
    decide
  · exact isAsciiDigit_of_mem_decimalDigits digit

theorem le_length_paddedDigits (width n : Nat) : width ≤ (paddedDigits width n).length := by
  rw [paddedDigits, List.length_append, List.length_replicate]
  omega

theorem digitsValue_paddedDigits (width n : Nat) : digitsValue (paddedDigits width n) = n := by
  refine (Nat.ofDigitChars_append 0).trans ?_
  rw [Nat.ofDigitChars_replicate_zero, Nat.mul_zero]
  exact Nat.ofDigitChars_ten_toDigits

/-- Digits behind others shift them by their number. -/
theorem digitsValue_append_padded {width rest : Nat} (digits : List Char) (pos : 0 < width)
    (fits : rest < 10 ^ width) :
    digitsValue (digits ++ paddedDigits width rest) = 10 ^ width * digitsValue digits + rest := by
  have long : (paddedDigits width rest).length = width := length_paddedDigits pos fits
  calc digitsValue (digits ++ paddedDigits width rest)
      = Nat.ofDigitChars 10 (paddedDigits width rest) (digitsValue digits) :=
        Nat.ofDigitChars_append 0
    _ = 10 ^ width * digitsValue digits + digitsValue (paddedDigits width rest) := by
        rw [Nat.ofDigitChars_eq_ofDigitChars_zero, long]
        rfl
    _ = 10 ^ width * digitsValue digits + rest := by rw [digitsValue_paddedDigits]

theorem digitsValue_decimalDigits (n : Nat) : digitsValue (decimalDigits n) = n :=
  Nat.ofDigitChars_ten_toDigits

theorem digitsValue_lt {digits : List Char} (only : ∀ c ∈ digits, isAsciiDigit c = true) :
    digitsValue digits < 10 ^ digits.length := by
  induction digits using List.reverseRecOn with
  | nil => decide
  | append_singleton digits c ih =>
    have before := ih fun c mem => only c (List.mem_append_left _ mem)
    have last := only c (by simp)
    simp only [isAsciiDigit, Bool.and_eq_true, decide_eq_true_eq, Char.le_def,
      UInt32.le_iff_toNat_le] at last
    have upper : c.toNat ≤ 57 := last.2
    have value : digitsValue (digits ++ [c]) = 10 * digitsValue digits + (c.toNat - 48) :=
      List.foldl_append
    rw [value, List.length_append, List.length_singleton, Nat.pow_succ']
    omega

theorem latinDigit_of_isAsciiDigit {c : Char} (digit : isAsciiDigit c = true) :
    latinDigit c = c := by
  simp only [isAsciiDigit, Bool.and_eq_true, decide_eq_true_eq, Char.le_def,
    UInt32.le_iff_toNat_le] at digit
  have lower : 48 ≤ c.toNat := digit.1
  have upper : c.toNat ≤ 57 := digit.2
  have value : digitValue? c = some (c.toNat - 48) := by
    simp [digitValue?, digitZeros, lower, show c.toNat < 58 by omega]
  rw [latinDigit, value]
  apply Char.toNat_inj.1
  rw [Nat.toNat_digitChar_of_lt_ten (by omega)]
  omega

theorem mem_signed_iff {negative : Bool} {digits : List Char} {c : Char} :
    c ∈ signed negative digits ↔ negative = true ∧ c = '-' ∨ c ∈ digits := by
  cases negative <;> simp [signed]

/-- The characters of a signed Latin numeral. -/
theorem mem_signed {text : List Char} (negative : Bool)
    (numeral : ∀ c ∈ text, isAsciiDigit c = true ∨ c = '.') :
    ∀ c ∈ signed negative text, isAsciiDigit c = true ∨ c = '.' ∨ c = '-' := by
  intro c mem
  rcases mem_signed_iff.1 mem with ⟨-, minus⟩ | mem
  · exact .inr (.inr minus)
  · exact (numeral c mem).imp_right .inl

/-- A signed Latin numeral has no blanks around it and no digits of other scripts. -/
theorem numeralBody_signed {text : List Char} (negative : Bool)
    (numeral : ∀ c ∈ text, isAsciiDigit c = true ∨ c = '.') :
    numeralBody (signed negative text) = signed negative text := by
  have known := mem_signed negative numeral
  generalize signed negative text = shown at known
  have solid : ∀ c ∈ shown, isNumeralBlank c = false := by
    intro c mem
    rcases known c mem with digit | rfl | rfl
    · simp [isNumeralBlank, isBlank_of_isDigit (isDigit_of_isAsciiDigit digit)]
    · decide
    · decide
  have same : ∀ c ∈ shown, latinDigit c = id c := by
    intro c mem
    rcases known c mem with digit | rfl | rfl
    · exact latinDigit_of_isAsciiDigit digit
    · decide
    · decide
  calc numeralBody shown
      = shown.map latinDigit := by
        rw [numeralBody, trimBy_of_none solid]
        rfl
    _ = shown.map id := List.map_congr_left same
    _ = shown := List.map_id shown

/-- The sign of an unsigned numeral is the one in front of it. -/
theorem takeSign_signed {text : List Char} (negative : Bool)
    (numeral : ∀ c ∈ text, isAsciiDigit c = true ∨ c = '.') :
    takeSign (signed negative text) = (negative, text) := by
  cases negative with
  | true => rfl
  | false =>
    refine takeSign_eq fun c mem => ⟨?_, ?_⟩
    · rintro rfl
      exact absurd (numeral '-' mem) (by decide)
    · rintro rfl
      exact absurd (numeral '+' mem) (by decide)

theorem map_latinDigit {digits : List Char} (only : ∀ c ∈ digits, isAsciiDigit c = true) :
    digits.map latinDigit = digits :=
  (List.map_congr_left fun c mem => latinDigit_of_isAsciiDigit (only c mem)).trans (List.map_id _)

/-- Latin digits alone read as the number that they make, unless they are too many. -/
theorem integer?_digits {digits : List Char} (only : ∀ c ∈ digits, isAsciiDigit c = true)
    (nonempty : digits ≠ []) (few : digits.length ≤ digitLimit) :
    integer? digits = some (digitsValue digits : Int) := by
  rw [integer?_ofDigits (fun c mem => isDigit_of_isAsciiDigit (only c mem)) nonempty,
    if_pos few, map_latinDigit only]

/-- The digits of a number at a fixed number of last places. -/
def lastDigits : Nat → Nat → List Char
  | 0, _ => []
  | places + 1, n => paddedDigits (places + 1) (n % 10 ^ (places + 1))

theorem mem_lastDigits {places n : Nat} {c : Char} (mem : c ∈ lastDigits places n) :
    isAsciiDigit c = true := by
  cases places with
  | zero => cases mem
  | succ places => exact mem_paddedDigits mem

theorem length_lastDigits (places n : Nat) : (lastDigits places n).length = places := by
  cases places with
  | zero => rfl
  | succ places =>
    exact length_paddedDigits (by omega) (Nat.mod_lt _ (Nat.pow_pos (by decide)))

/-! ## Scaled numbers -/

section Scaled

variable {whole fraction : List Char} (negative : Bool)

/-- Digits without a point are an integer. -/
theorem scaled?_digits (digits : ∀ c ∈ whole, isAsciiDigit c = true) (nonempty : whole ≠ []) :
    scaled? negative whole = some ⟨negative, digitsValue whole, 0⟩ := by
  obtain ⟨all, none⟩ := @takeWhile_run _ _ _ [] digits (by simp)
  rw [List.append_nil] at all none
  simp [scaled?, all, none, nonempty]

/-- Digits around a point count as many places as stand behind it. -/
theorem scaled?_point (digits : ∀ c ∈ whole ++ fraction, isAsciiDigit c = true)
    (nonempty : whole ++ fraction ≠ []) :
    scaled? negative (whole ++ '.' :: fraction) =
      some ⟨negative, digitsValue (whole ++ fraction), -fraction.length⟩ := by
  have point : ∀ c ∈ ('.' :: fraction).head?, isAsciiDigit c = false := by
    rintro _ ⟨⟩
    decide
  obtain ⟨taken, dropped⟩ := takeWhile_run
    (fun c (mem : c ∈ whole) => digits c (List.mem_append_left _ mem)) point
  obtain ⟨behind, ends⟩ := @takeWhile_run _ _ fraction []
    (fun c mem => digits c (List.mem_append_right _ mem)) (by simp)
  rw [List.append_nil] at behind ends
  have bare : ¬(whole = [] ∧ fraction = []) := by simpa using nonempty
  simp [scaled?, taken, dropped, behind, ends, bare]

end Scaled

/-! ## Decimal numbers of any script -/

/-- A decimal number: digits of any script, and more behind a point if there is one. -/
structure WrittenNumber where
  whole : List Char
  fraction : Option (List Char)
  digits : ∀ c ∈ whole ++ fraction.getD [], isDigit c = true
  digits_ne_nil : whole ++ fraction.getD [] ≠ []

namespace WrittenNumber

def characters (number : WrittenNumber) : List Char :=
  match number.fraction with
  | none => number.whole
  | some fraction => number.whole ++ '.' :: fraction

/-- The number that the digits make. -/
def value (number : WrittenNumber) : Scaled :=
  ⟨false, digitsValue ((number.whole ++ number.fraction.getD []).map latinDigit),
    -(number.fraction.getD []).length⟩

theorem numeral (number : WrittenNumber) : ∀ c ∈ number.characters, IsNumeral c := by
  intro c mem
  have digits := number.digits
  unfold characters at mem
  cases shown : number.fraction with
  | none =>
    rw [shown] at mem digits
    exact .inl (digits c (by simpa using mem))
  | some fraction =>
    rw [shown] at mem digits
    simp only [List.mem_append, List.mem_cons] at mem
    rcases mem with mem | rfl | mem
    · exact .inl (digits c (by simp [mem]))
    · exact .inr rfl
    · exact .inl (digits c (by simp [mem]))

theorem characters_ne_nil (number : WrittenNumber) : number.characters ≠ [] := by
  have nonempty := number.digits_ne_nil
  unfold characters
  cases shown : number.fraction with
  | none =>
    rw [shown] at nonempty
    simpa using nonempty
  | some fraction => simp

/-- A decimal number is read as the double nearest to it. -/
theorem real?_characters (number : WrittenNumber) :
    real? number.characters = some (.ofScaled number.value) := by
  have latin : ∀ c ∈ (number.whole ++ number.fraction.getD []).map latinDigit,
      isAsciiDigit c = true := by
    intro c mem
    obtain ⟨d, there, rfl⟩ := List.mem_map.1 mem
    rw [isAsciiDigit_latinDigit]
    exact number.digits d there
  have nonempty : (number.whole ++ number.fraction.getD []).map latinDigit ≠ [] := by
    simpa using number.digits_ne_nil
  rw [real?_numeral number.numeral]
  unfold characters value
  cases shown : number.fraction with
  | none =>
    simp only [shown, Option.getD_none, List.append_nil] at latin nonempty
    simp [scaled?_digits false latin nonempty]
  | some fraction =>
    have point : latinDigit '.' = '.' := (latinDigit_eq_point_iff '.').2 rfl
    simp only [shown, Option.getD_some, List.map_append] at latin nonempty
    have read := scaled?_point false latin nonempty
    rw [List.length_map] at read
    simp [point, read]

/-- Digits and points that are read as a real number are a decimal number. -/
theorem exists_of_isSome {text : List Char} (numeral : ∀ c ∈ text, IsNumeral c)
    (reads : (real? text).isSome = true) : ∃ number : WrittenNumber, number.characters = text := by
  obtain ⟨⟨digit, mem, known⟩, points⟩ := (real?_isSome_iff numeral).1 reads
  by_cases pointed : '.' ∈ text
  · obtain ⟨whole, fraction, rfl⟩ := List.append_of_mem pointed
    -- The one point is the one that the text is cut at, so neither side has another.
    rw [List.count_append, List.count_cons_self] at points
    have bare : '.' ∉ whole ++ fraction := by
      rw [List.mem_append, ← List.count_pos_iff, ← List.count_pos_iff]
      omega
    have other : digit ≠ '.' := by
      rintro rfl
      exact absurd known (by decide)
    have there : digit ∈ whole ++ fraction := by simpa [other] using mem
    refine ⟨⟨whole, some fraction, fun c mem => ?_, List.ne_nil_of_mem there⟩, rfl⟩
    have inside : c ∈ whole ++ '.' :: fraction :=
      (List.mem_append.1 mem).elim (List.mem_append_left _)
        fun mem => List.mem_append_right _ (List.mem_cons_of_mem _ mem)
    exact (numeral c inside).resolve_right fun point => bare (point ▸ mem)
  · have digits : ∀ c ∈ text, isDigit c = true := fun c mem =>
      (numeral c mem).resolve_right fun point => pointed (point ▸ mem)
    exact ⟨⟨text, none, by simpa using digits, by simpa using List.ne_nil_of_mem mem⟩, rfl⟩

end WrittenNumber

/-! ## Plain numerals -/

/-- The parts of a numeral without an exponent: a sign or none, digits, and digits behind a point,
which is there when these are. -/
structure PlainNumeral where
  negative : Bool
  whole : List Char
  fraction : List Char
  digits : ∀ c ∈ whole ++ fraction, isAsciiDigit c = true
  whole_ne_nil : whole ≠ []

namespace PlainNumeral

/-- The characters behind the sign. -/
def characters (plain : PlainNumeral) : List Char :=
  match plain.fraction with
  | [] => plain.whole
  | fraction => plain.whole ++ '.' :: fraction

def text (plain : PlainNumeral) : String :=
  String.ofList (signed plain.negative plain.characters)

/-- The number that the digits make. -/
def number (plain : PlainNumeral) : Scaled :=
  ⟨plain.negative, digitsValue (plain.whole ++ plain.fraction), -plain.fraction.length⟩

variable (plain : PlainNumeral)

theorem characters_of_fraction {plain : PlainNumeral} (some : plain.fraction ≠ []) :
    plain.characters = plain.whole ++ '.' :: plain.fraction := by
  unfold characters
  split
  · next none => exact absurd none some
  · rfl

theorem digits_whole : ∀ c ∈ plain.whole, isAsciiDigit c = true := fun c mem =>
  plain.digits c (List.mem_append_left _ mem)

theorem digits_fraction : ∀ c ∈ plain.fraction, isAsciiDigit c = true := fun c mem =>
  plain.digits c (List.mem_append_right _ mem)

theorem numeral : ∀ c ∈ plain.characters, isAsciiDigit c = true ∨ c = '.' := by
  intro c mem
  unfold characters at mem
  split at mem
  · exact .inl (plain.digits_whole c mem)
  · simp only [List.mem_append, List.mem_cons] at mem
    rcases mem with mem | rfl | mem
    · exact .inl (plain.digits_whole c mem)
    · exact .inr rfl
    · exact .inl (plain.digits_fraction c mem)

theorem scaled?_characters : scaled? plain.negative plain.characters = some plain.number := by
  unfold characters number
  cases shown : plain.fraction with
  | nil =>
    have number := scaled?_digits plain.negative plain.digits_whole plain.whole_ne_nil
    simpa using number
  | cons c rest =>
    have digits := plain.digits
    rw [shown] at digits
    exact scaled?_point plain.negative digits (List.append_ne_nil_of_right_ne_nil _ (by simp))

/-- The text reads as its number, digit by digit. -/
theorem decimal?_text : decimal? plain.text.toList = some (.finite plain.number) := by
  have numeral := plain.numeral
  have whole := plain.scaled?_characters
  have word : plain.characters.takeWhile (!isAsciiDigit ·) = [] := by
    obtain ⟨c, rest, shown⟩ := List.exists_cons_of_ne_nil plain.whole_ne_nil
    have digit : isAsciiDigit c = true := plain.digits_whole c (by simp [shown])
    unfold characters
    split <;> simp [shown, digit]
  have kept : (signed plain.negative plain.characters).filter (· ≠ '_') =
      signed plain.negative plain.characters := by
    refine List.filter_eq_self.2 fun c mem => ?_
    have known := mem_signed plain.negative numeral c mem
    have : c ≠ '_' := by
      rintro rfl
      exact absurd known (by decide)
    simpa using this
  rw [decimal?, text, String.toList_ofList, numeralBody_signed _ numeral, kept,
    takeSign_signed _ numeral]
  simp only [word, whole]
  rfl

/-- As a real number it is the nearest double to that number. -/
theorem real?_text : real? plain.text.toList = some (.ofScaled plain.number) := by
  have numeral := plain.numeral
  have kept : dropUnderscores? none (signed plain.negative plain.characters) =
      some (signed plain.negative plain.characters) := by
    refine dropUnderscores?_eq none (by simp) fun c mem => ?_
    rintro rfl
    exact absurd (mem_signed plain.negative numeral '_' mem) (by decide)
  simp only [real?, text, String.toList_ofList, numeralBody_signed _ numeral, kept,
    takeSign_signed _ numeral, Option.bind_eq_bind, Option.bind_some]
  split
  · next word => exact absurd word (numeral_ne_word numeral (by decide))
  · next word => exact absurd word (numeral_ne_word numeral (by decide))
  · next word => exact absurd word (numeral_ne_word numeral (by decide))
  · rw [plain.scaled?_characters]
    rfl

/-- The parts of a number of units with a fixed number of places. -/
def ofFixed (negative : Bool) (places n : Nat) : PlainNumeral where
  negative := negative
  whole := decimalDigits (n / 10 ^ places)
  fraction := lastDigits places n
  digits := by
    intro c mem
    rcases List.mem_append.1 mem with mem | mem
    · exact isAsciiDigit_of_mem_decimalDigits mem
    · exact mem_lastDigits mem
  whole_ne_nil := Nat.toDigits_ne_nil

variable (negative : Bool) (places n : Nat)

theorem length_fraction_ofFixed : (ofFixed negative places n).fraction.length = places :=
  length_lastDigits places n

theorem text_ofFixed :
    (ofFixed negative places n).text = String.ofList (signed negative (fixedPoint places n)) := by
  cases places with
  | zero =>
    have digits : decimalDigits (n / 10 ^ 0) = decimalDigits n := by rw [Nat.pow_zero, Nat.div_one]
    exact congrArg (fun digits => String.ofList (signed negative digits)) digits
  | succ places =>
    have some : (ofFixed negative (places + 1) n).fraction ≠ [] :=
      List.ne_nil_of_length_pos (by rw [length_fraction_ofFixed]; omega)
    rw [text, characters_of_fraction some]
    rfl

theorem number_ofFixed : (ofFixed negative places n).number = ⟨negative, n, -places⟩ := by
  have value : digitsValue (decimalDigits (n / 10 ^ places) ++ lastDigits places n) = n := by
    cases places with
    | zero =>
      rw [Nat.pow_zero, Nat.div_one, lastDigits, List.append_nil, digitsValue_decimalDigits]
    | succ places =>
      rw [lastDigits, digitsValue_append_padded _ (by omega) (Nat.mod_lt _ (Nat.pow_pos (by decide))),
        digitsValue_decimalDigits]
      exact Nat.div_add_mod n _
  rw [number, length_fraction_ofFixed]
  exact congrArg (Scaled.mk negative · (-places)) value

end PlainNumeral

end MediaCommand
