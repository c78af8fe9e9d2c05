import MediaCommand.Proofs.Probe.Numerals
import MediaCommand.Proofs.Probe.Result

/-!
# Numbers in probe results

A format gives its numbers as numbers or as their texts, and which of the two is meant not to
matter. `ProbeResult.numeric_fields_iff` says when it does not: an integer in a text is read unless
it has too many digits, one that is a number unless it is zero, which counts as absent. A number of
too many digits makes no document at all. Apart from that a field is `none` just where no number
stands.
-/

namespace MediaCommand

namespace Value

/-- Whether a value stands for an integer: that integer, a text that reads as it, a number with this
integer part, or a truth value. -/
def StandsFor (n : Int) : Value → Prop
  | .int m => m = n
  | .text s => integer? s.toList = some n
  | .float (.finite x) => x.truncate = n
  | .bool b => b.toNat = n
  | _ => False

/-- Whether a value stands for a double: that double, a text or an integer that reads as it, or a
truth value. -/
def StandsForReal (x : Double) : Value → Prop
  | .float y => y = x
  | .text s => real? s.toList = some x
  | .int n => Double.ofInt? n = .ok x
  | .bool b => Double.ofInt b.toNat = x
  | _ => False

/-- Zero as a number, or the truth value that counts as zero; a text is neither. -/
def IsZero : Value → Prop
  | .int n => n = 0
  | .float x => x.isZero = true
  | .bool b => b = false
  | _ => False

/-- The text of an integer stands for it unless it is too long. -/
theorem standsFor_toString (n : Int) :
    (Value.text (toString n)).StandsFor n ↔ IsConvertible n := by
  rw [StandsFor, integer?_toString]
  simp

variable {value : Value}

/-- What stands for a number counts as present unless it is a zero. -/
theorem isTruthy_iff_of_number
    (number : (∃ n, value.StandsFor n) ∨ ∃ x, value.StandsForReal x) :
    value.isTruthy = true ↔ ¬value.IsZero := by
  cases value with
  | text s =>
    have nonempty : s ≠ "" := by
      rintro rfl
      rcases number with ⟨_, stands⟩ | ⟨_, stands⟩ <;> cases stands
    simpa [isTruthy, IsZero] using nonempty
  | int n => simp [isTruthy, IsZero]
  | float x => simp [isTruthy, IsZero]
  | bool b => simp [isTruthy, IsZero]
  | _ => rcases number with ⟨_, stands⟩ | ⟨_, stands⟩ <;> cases stands

theorem toInt?_eq_some_iff {n : Int} :
    value.toInt? = .ok (some n) ↔ value.StandsFor n ∧ ¬value.IsZero := by
  have converted : value.toInt? = .ok (some n) ↔
      value.StandsFor n ∧ value.isTruthy = true := by
    unfold toInt?
    cases value.isTruthy with
    | false => simp
    | true =>
      cases value with
      | float x => cases x <;> simp [StandsFor]
      | _ => simp [StandsFor]
  rw [converted]
  exact and_congr_right fun stands => isTruthy_iff_of_number (.inl ⟨n, stands⟩)

theorem toDouble?_eq_some_iff {x : Double} :
    value.toDouble? = .ok (some x) ↔ value.StandsForReal x ∧ ¬value.IsZero := by
  have converted : value.toDouble? = .ok (some x) ↔
      value.StandsForReal x ∧ value.isTruthy = true := by
    unfold toDouble?
    cases value.isTruthy with
    | false => simp
    | true =>
      cases value with
      | int n => cases rounded : Double.ofInt? n <;> simp [StandsForReal, rounded]
      | _ => simp [StandsForReal]
  rw [converted]
  exact and_congr_right fun stands => isTruthy_iff_of_number (.inr ⟨x, stands⟩)

/-- The entry of a mapping, or `null`, is a number only as an entry. -/
theorem entry_toInt?_eq_some_iff {entry : Option Value} {n : Int} :
    (entry.getD .null).toInt? = .ok (some n) ↔
      ∃ value, entry = some value ∧ value.StandsFor n ∧ ¬value.IsZero := by
  rw [toInt?_eq_some_iff]
  cases entry <;> simp [StandsFor]

theorem entry_toDouble?_eq_some_iff {entry : Option Value} {x : Double} :
    (entry.getD .null).toDouble? = .ok (some x) ↔
      ∃ value, entry = some value ∧ value.StandsForReal x ∧ ¬value.IsZero := by
  rw [toDouble?_eq_some_iff]
  cases entry <;> simp [StandsForReal]

end Value

/-- The fields of a result that are integers. -/
inductive IntegerField where
  | bitRate
  | size

/-- The entry of the format that a field is read from. -/
def IntegerField.key : IntegerField → String
  | .bitRate => "bit_rate"
  | .size => "size"

namespace ProbeResult

def integer (result : ProbeResult) : IntegerField → Option Int
  | .bitRate => result.bitRate
  | .size => result.size

variable {entries fields : List (Value × Value)} {result : ProbeResult}

/-- A result has the integers of its format. -/
theorem integer_ofDocument (format : formatOf entries = .mapping fields)
    (done : ofDocument (.mapping entries) = .ok result) (field : IntegerField) (n : Int) :
    result.integer field = some n ↔
      ∃ value, Value.entryFor? field.key fields = some value ∧
        value.StandsFor n ∧ ¬value.IsZero := by
  obtain ⟨others, same, -, bitRate, size, -⟩ := ofDocument_eq_ok done
  obtain rfl : fields = others := by
    rw [format] at same
    cases same
    rfl
  have read : ((Value.entryFor? field.key fields).getD .null).toInt? =
      .ok (result.integer field) := by
    cases field with
    | bitRate => exact bitRate
    | size => exact size
  rw [← Value.entry_toInt?_eq_some_iff, read, Except.ok.injEq]

theorem duration_ofDocument (format : formatOf entries = .mapping fields)
    (done : ofDocument (.mapping entries) = .ok result) (x : Double) :
    result.duration = some x ↔
      ∃ value, Value.entryFor? "duration" fields = some value ∧
        value.StandsForReal x ∧ ¬value.IsZero := by
  obtain ⟨others, same, duration, -⟩ := ofDocument_eq_ok done
  obtain rfl : fields = others := by
    rw [format] at same
    cases same
    rfl
  rw [← Value.entry_toDouble?_eq_some_iff, duration, Except.ok.injEq]

/-- **The numbers of a probe.** An integer can be read from a document as a number, unless it is too
long, and as the text of its digits. A document with a number that is too long is a failed probe. In
a format that is an object, the text of an integer gives that integer exactly if it is not too long,
and the number gives it unless it is zero. In general a field has a number exactly when an entry
stands for it that is no zero number. -/
theorem numeric_fields_iff (depth : Nat) (text : String) :
    (∀ (n : Int) (fuel : Nat) (rest : List Char),
      (Json.Ends rest → Json.value depth (fuel + 1) ((toString n).toList ++ rest) =
        if IsConvertible n then .ok (.int n, rest)
        else .error (.numeralTooLong (digitCount n.natAbs))) ∧
      Json.value depth (fuel + 1) ('"' :: ((toString n).toList ++ '"' :: rest)) =
        .ok (.text (toString n), rest)) ∧
    (∀ digits, Json.document depth text.toList = .error (.numeralTooLong digits) →
      ∃ result, ofOutput depth (.text text) = .ok result ∧ result.success = false ∧
        ∀ field, result.integer field = none) ∧
    ∀ entries fields, Json.document depth text.toList = .ok (.mapping entries) →
      formatOf entries = .mapping fields →
      ((∃ result, ofOutput depth (.text text) = .ok result) ↔ CanBeRead (.mapping fields)) ∧
      ∀ result, ofOutput depth (.text text) = .ok result →
        (∀ (field : IntegerField) (n : Int),
          (Value.entryFor? field.key fields = some (.text (toString n)) →
            (result.integer field = some n ↔ IsConvertible n)) ∧
          (Value.entryFor? field.key fields = some (.int n) →
            (result.integer field = some n ↔ n ≠ 0)) ∧
          (result.integer field = some n ↔
            ∃ value, Value.entryFor? field.key fields = some value ∧
              value.StandsFor n ∧ ¬value.IsZero)) ∧
        ∀ x, result.duration = some x ↔
          ∃ value, Value.entryFor? "duration" fields = some value ∧
            value.StandsForReal x ∧ ¬value.IsZero := by
  refine ⟨fun n fuel rest => ⟨fun ends => Json.value_numeral ends depth fuel n,
    Json.value_quoted_numeral depth fuel n⟩, fun digits long => ?_, ?_⟩
  · refine ⟨unparsed (Failure.numeralTooLong digits).message, ?_, rfl, fun field => ?_⟩
    · simp only [ofOutput, long]
    · cases field <;> rfl
  intro entries fields object format
  rw [ofOutput_of_document object]
  refine ⟨format ▸ ofDocument_returns_iff, fun result done => ⟨fun field n => ?_,
    duration_ofDocument format done⟩⟩
  have known := integer_ofDocument format done field n
  refine ⟨fun spelled => ?_, fun spelled => ?_, known⟩
  · rw [known, spelled]
    simp only [Option.some.injEq, exists_eq_left', Value.standsFor_toString]
    exact and_iff_left id
  · rw [known, spelled]
    simp [Value.StandsFor, Value.IsZero]

/-- A format with its size in a text, which is zero, and its bit rate as a number. -/
def spelledBoth : String := "\x7b\"format\":\x7b\"size\":\"0\",\"bit_rate\":7\x7d\x7d"

theorem document_spelledBoth : Json.document 2 spelledBoth.toList =
    .ok (.mapping [(.text "format",
      .mapping [(.text "size", .text "0"), (.text "bit_rate", .int 7)])]) := by
  have characters : spelledBoth.toList =
      ['\x7b', '"', 'f', 'o', 'r', 'm', 'a', 't', '"', ':', '\x7b', '"', 's', 'i', 'z', 'e', '"',
        ':', '"', '0', '"', ',', '"', 'b', 'i', 't', '_', 'r', 'a', 't', 'e', '"', ':', '7',
        '\x7d', '\x7d'] := by decide +kernel
  rw [characters]
  rfl

theorem numeric_fields_spelledBoth :
    ∃ result, ofOutput 2 (.text spelledBoth) = .ok result ∧
      result.size = some 0 ∧ result.bitRate = some 7 := by
  obtain ⟨returns, known⟩ := (numeric_fields_iff 2 spelledBoth).2.2 _ _ document_spelledBoth rfl
  obtain ⟨result, done⟩ := returns.2 ⟨_, rfl, by simp [Value.entryFor?]⟩
  obtain ⟨integers, -⟩ := known result done
  exact ⟨result, done, ((integers .size 0).1 rfl).2 (by decide),
    ((integers .bitRate 7).2.1 rfl).2 (by decide)⟩

/-- A size of zero is read from its text, and lost as a number. -/
theorem size_zero_lost :
    (∃ result, ofOutput 2 (.text "\x7b\"format\": \x7b\"size\": \"0\"\x7d\x7d") = .ok result ∧
      result.size = some 0) ∧
    ∃ result, ofOutput 2 (.text "\x7b\"format\": \x7b\"size\": 0\x7d\x7d") = .ok result ∧
      result.size = none :=
  ⟨except_returns_with (by decide +kernel), except_returns_with (by decide +kernel)⟩

end ProbeResult

end MediaCommand
