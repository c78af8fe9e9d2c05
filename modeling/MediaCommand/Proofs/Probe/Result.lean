import MediaCommand.Probe.Result
import MediaCommand.Proofs.Action
import MediaCommand.Proofs.Number.Range
import MediaCommand.Proofs.Probe.Json

/-!
# Which probe outputs have a result

Reading the output of a probe is meant to return for every text. `ofOutput_returns_iff` says for
which texts it does: what is no JSON object is a failed probe with an error, and an object has a
result unless its format is no object or holds a number that cannot be converted. Only a text that
is nested too deep is neither. Each conversion is settled by the kind of the value alone
(`toDouble?_fails_iff`, `toInt?_fails_iff`).
-/

namespace MediaCommand

/-! ## Conversions -/

namespace Value

variable {value : Value} {failure : Failure}

/-- Only an integer beyond the doubles cannot be converted to one. -/
theorem toDouble?_fails_iff :
    value.toDouble? = .error failure ↔
      failure = .integerTooLarge ∧ ∃ n, value = .int n ∧ Double.overflow ≤ n.natAbs := by
  cases value with
  | int n =>
    by_cases zero : n = 0
    · subst zero
      have pos : 0 < Double.overflow := Nat.lt_of_lt_of_le (by decide) (Double.le_limit 970)
      refine iff_of_false (fun fails => by cases fails) ?_
      rintro ⟨-, n, same, beyond⟩
      cases same
      exact absurd beyond (Nat.not_le.2 pos)
    · have converted : (Value.int n).toDouble? = some <$> Double.ofInt? n := by
        simp [toDouble?, isTruthy, zero]
      rw [converted, except_map_eq_error, Double.ofInt?_fails_iff]
      simp
  | _ =>
    refine iff_of_false ?_ (fun ⟨_, n, same, _⟩ => by cases same)
    unfold toDouble?
    split <;> exact fun fails => by cases fails

/-- Only an infinity cannot be converted to an integer. -/
theorem toInt?_fails_iff :
    value.toInt? = .error failure ↔
      failure = .infinityToInteger ∧ ∃ negative, value = .float (.infinite negative) := by
  cases value with
  | float x =>
    cases x with
    | infinite negative =>
      have refused : (Value.float (.infinite negative)).toInt? = .error .infinityToInteger := rfl
      rw [refused]
      simp [eq_comm]
    | _ =>
      refine iff_of_false ?_ (fun ⟨_, negative, same⟩ => by cases same)
      unfold toInt?
      split <;> exact fun fails => by cases fails
  | _ =>
    refine iff_of_false ?_ (fun ⟨_, negative, same⟩ => by cases same)
    unfold toInt?
    split <;> exact fun fails => by cases fails

/-- The entry of a mapping, or `null`, is a value other than `null` only as an entry. -/
theorem getD_null_eq {entry : Option Value} {value : Value} (present : value ≠ .null) :
    entry.getD .null = value ↔ entry = some value := by
  cases entry with
  | none => simp [present.symm]
  | some other => simp

theorem entry_toDouble?_returns_iff {entry : Option Value} :
    (∃ x, (entry.getD .null).toDouble? = .ok x) ↔
      ∀ n, entry = some (.int n) → n.natAbs < Double.overflow := by
  have int (n : Int) : entry.getD .null = .int n ↔ entry = some (.int n) :=
    getD_null_eq fun same => by cases same
  simp only [except_returns_iff, ne_eq, toDouble?_fails_iff, int]
  constructor
  · intro never n same
    have := never .integerTooLarge
    by_contra beyond
    exact this ⟨rfl, n, same, Nat.not_lt.1 beyond⟩
  · rintro within failure ⟨-, n, same, beyond⟩
    exact Nat.not_lt.2 beyond (within n same)

theorem entry_toInt?_returns_iff {entry : Option Value} :
    (∃ n, (entry.getD .null).toInt? = .ok n) ↔
      ∀ negative, entry ≠ some (.float (.infinite negative)) := by
  have infinite (negative : Bool) : entry.getD .null = .float (.infinite negative) ↔
      entry = some (.float (.infinite negative)) := getD_null_eq fun same => by cases same
  simp only [except_returns_iff, ne_eq, toInt?_fails_iff, infinite]
  constructor
  · intro never negative same
    exact never .infinityToInteger ⟨rfl, negative, same⟩
  · rintro finite failure ⟨-, negative, same⟩
    exact finite negative same

end Value

namespace ProbeResult

/-- The format that an object describes; one without a format describes an empty one. -/
def formatOf (entries : List (Value × Value)) : Value :=
  (Value.entryFor? "format" entries).getD (.mapping [])

/-- Whether a format can be read: it is an object, its duration is no integer beyond the doubles,
and neither its bit rate nor its size is infinite. -/
def CanBeRead (format : Value) : Prop :=
  ∃ fields, format = .mapping fields ∧
    (∀ n, Value.entryFor? "duration" fields = some (.int n) → n.natAbs < Double.overflow) ∧
    ∀ key ∈ ["bit_rate", "size"], ∀ negative,
      Value.entryFor? key fields ≠ some (.float (.infinite negative))

variable {entries fields : List (Value × Value)}

/-- With a format that is an object only the conversions are left. -/
theorem ofDocument_mapping (format : formatOf entries = .mapping fields) :
    ofDocument (.mapping entries) = (do
      let duration ← ((Value.entryFor? "duration" fields).getD .null).toDouble?
      let bitRate ← ((Value.entryFor? "bit_rate" fields).getD .null).toInt?
      let size ← ((Value.entryFor? "size" fields).getD .null).toInt?
      return { empty with
        streams := (Value.entryFor? "streams" entries).getD (.list [])
        formatName := (Value.entryFor? "format_name" fields).getD (.text "")
        duration, bitRate, size, raw := some (.mapping entries) }) := by
  have known : (Value.mapping entries).field "format" (.mapping []) = .ok (.mapping fields) :=
    congrArg Except.ok format
  simp only [ofDocument, known]
  rfl

theorem ofDocument_other (other : ∀ fields, formatOf entries ≠ .mapping fields) :
    ofDocument (.mapping entries) = .error (.noAttribute (formatOf entries).kind "get") := by
  have known : (Value.mapping entries).field "format" (.mapping []) = .ok (formatOf entries) := rfl
  simp only [ofDocument, known]
  cases format : formatOf entries with
  | mapping fields => exact absurd format (other fields)
  | _ => rfl

theorem ofDocument_returns_iff :
    (∃ result, ofDocument (.mapping entries) = .ok result) ↔ CanBeRead (formatOf entries) := by
  by_cases object : ∃ fields, formatOf entries = .mapping fields
  · obtain ⟨fields, format⟩ := object
    rw [ofDocument_mapping format, format]
    constructor
    · rintro ⟨result, done⟩
      obtain ⟨x, duration, done⟩ := except_bind_eq_ok.1 done
      obtain ⟨rate, bitRate, done⟩ := except_bind_eq_ok.1 done
      obtain ⟨count, size, -⟩ := except_bind_eq_ok.1 done
      refine ⟨fields, rfl, Value.entry_toDouble?_returns_iff.1 ⟨x, duration⟩, ?_⟩
      intro key mem
      rcases List.mem_pair.1 mem with rfl | rfl
      · exact Value.entry_toInt?_returns_iff.1 ⟨rate, bitRate⟩
      · exact Value.entry_toInt?_returns_iff.1 ⟨count, size⟩
    · rintro ⟨others, same, duration, finite⟩
      cases same
      obtain ⟨x, duration⟩ := Value.entry_toDouble?_returns_iff.2 duration
      obtain ⟨rate, bitRate⟩ := Value.entry_toInt?_returns_iff.2 (finite "bit_rate" (by simp))
      obtain ⟨count, size⟩ := Value.entry_toInt?_returns_iff.2 (finite "size" (by simp))
      exact ⟨_, except_bind_eq_ok.2 ⟨x, duration, except_bind_eq_ok.2 ⟨rate, bitRate,
        except_bind_eq_ok.2 ⟨count, size, rfl⟩⟩⟩⟩
  · rw [ofDocument_other fun fields format => object ⟨fields, format⟩]
    exact iff_of_false (fun ⟨_, done⟩ => by cases done) fun ⟨fields, format, _⟩ =>
      object ⟨fields, format⟩

/-- The faults that reading an object may end with. -/
def Escapes (failure : Failure) : Prop :=
  failure = .integerTooLarge ∨ failure = .infinityToInteger ∨
    ∃ kind, failure = .noAttribute kind "get"

/-- The result of an object: what the object has, and the numbers of its format. -/
theorem ofDocument_eq_ok {result : ProbeResult}
    (done : ofDocument (.mapping entries) = .ok result) :
    ∃ fields, formatOf entries = .mapping fields ∧
      ((Value.entryFor? "duration" fields).getD .null).toDouble? = .ok result.duration ∧
      ((Value.entryFor? "bit_rate" fields).getD .null).toInt? = .ok result.bitRate ∧
      ((Value.entryFor? "size" fields).getD .null).toInt? = .ok result.size ∧
      result.success = true ∧ result.error = "" := by
  obtain ⟨fields, format, -⟩ := ofDocument_returns_iff.1 ⟨result, done⟩
  rw [ofDocument_mapping format] at done
  obtain ⟨_, duration, done⟩ := except_bind_eq_ok.1 done
  obtain ⟨_, bitRate, done⟩ := except_bind_eq_ok.1 done
  obtain ⟨_, size, done⟩ := except_bind_eq_ok.1 done
  cases done
  exact ⟨fields, format, duration, bitRate, size, rfl, rfl⟩

theorem success_ofDocument {result : ProbeResult}
    (done : ofDocument (.mapping entries) = .ok result) : result.success = true := by
  obtain ⟨_, -, -, -, -, success, -⟩ := ofDocument_eq_ok done
  exact success

theorem escapes_ofDocument {failure : Failure}
    (fails : ofDocument (.mapping entries) = .error failure) : Escapes failure := by
  by_cases object : ∃ fields, formatOf entries = .mapping fields
  · obtain ⟨fields, format⟩ := object
    rw [ofDocument_mapping format] at fails
    rcases except_bind_eq_error.1 fails with duration | ⟨_, -, fails⟩
    · exact .inl (Value.toDouble?_fails_iff.1 duration).1
    rcases except_bind_eq_error.1 fails with bitRate | ⟨_, -, fails⟩
    · exact .inr (.inl (Value.toInt?_fails_iff.1 bitRate).1)
    rcases except_bind_eq_error.1 fails with size | ⟨_, -, fails⟩
    · exact .inr (.inl (Value.toInt?_fails_iff.1 size).1)
    cases fails
  · rw [ofDocument_other fun fields format => object ⟨fields, format⟩] at fails
    cases fails
    exact .inr (.inr ⟨_, rfl⟩)

variable {depth : Nat}

theorem ofOutput_of_document {text : String} {data : Value}
    (read : Json.document depth text.toList = .ok data) :
    ofOutput depth (.text text) = ofDocument data := by
  simp only [ofOutput, read]

/-- That a document is nested too deep is not caught. -/
theorem ofOutput_of_nestedTooDeep {text container : String}
    (deep : Json.document depth text.toList = .error (.nestedTooDeep container)) :
    ofOutput depth (.text text) = .error (.nestedTooDeep container) := by
  simp only [ofOutput, deep]

/-- What comes of the output of a probe: a text that is nested too deep is an error, an object is
read, and anything else is a failed probe that says why. -/
theorem ofOutput_cases (depth : Nat) (text : String) :
    (∃ container, Json.document depth text.toList = .error (.nestedTooDeep container) ∧
      ofOutput depth (.text text) = .error (.nestedTooDeep container)) ∨
    (∃ entries, Json.document depth text.toList = .ok (.mapping entries) ∧
      ofOutput depth (.text text) = ofDocument (.mapping entries)) ∨
    (∀ container, Json.document depth text.toList ≠ .error (.nestedTooDeep container)) ∧
      (∀ entries, Json.document depth text.toList ≠ .ok (.mapping entries)) ∧
      ∃ error, ofOutput depth (.text text) = .ok (failed error) ∧ error ≠ "" := by
  have told (problem : String) : "Failed to parse JSON: " ++ problem ≠ "" := by simp
  cases read : Json.document depth text.toList with
  | error problem =>
    cases problem with
    | nestedTooDeep container =>
      exact .inl ⟨container, rfl, ofOutput_of_nestedTooDeep read⟩
    | _ =>
      obtain ⟨problem, known⟩ : ∃ problem,
          ofOutput depth (.text text) = .ok (unparsed problem) := by
        simp only [ofOutput, read]
        exact ⟨_, rfl⟩
      exact .inr (.inr ⟨fun _ => by simp, fun _ => by simp, _, known, told problem⟩)
  | ok data =>
    cases data with
    | mapping entries => exact .inr (.inl ⟨entries, rfl, ofOutput_of_document read⟩)
    | _ =>
      have known : ofOutput depth (.text text) = .ok (failed "Unexpected ffprobe output") :=
        ofOutput_of_document read
      exact .inr (.inr ⟨fun _ => by simp, fun _ => by simp, _, known, by decide⟩)

/-- **When a probe has a result.** At any limit of the nesting, a text that is nested within it and
is no JSON object is a failed probe that says why; integers of too many digits are none of JSON. An
object has a result, and a successful one, exactly when its format can be read; otherwise one of
three faults escapes. That a text is nested too deep escapes, too. -/
theorem ofOutput_returns_iff (depth : Nat) (text : String) :
    ((∃ result, ofOutput depth (.text text) = .ok result) ↔
      (∀ container, Json.document depth text.toList ≠ .error (.nestedTooDeep container)) ∧
      ∀ entries, Json.document depth text.toList = .ok (.mapping entries) →
        CanBeRead (formatOf entries)) ∧
    (∀ result, ofOutput depth (.text text) = .ok result →
      (result.success = true ↔
        ∃ entries, Json.document depth text.toList = .ok (.mapping entries)) ∧
      (result.success = false → result.error ≠ "")) ∧
    ∀ failure, ofOutput depth (.text text) = .error failure →
      (∃ container, Json.document depth text.toList = .error (.nestedTooDeep container) ∧
        failure = .nestedTooDeep container) ∨
      (∃ entries, Json.document depth text.toList = .ok (.mapping entries)) ∧ Escapes failure := by
  rcases ofOutput_cases depth text with ⟨container, read, known⟩ | ⟨entries, read, known⟩ |
    ⟨shallow, other, error, known, told⟩
  · rw [known]
    refine ⟨iff_of_false (fun ⟨_, done⟩ => ?_) fun all => all.1 container read,
      fun _ done => ?_, fun failure fails => ?_⟩
    · cases done
    · cases done
    · cases fails
      exact .inl ⟨container, read, rfl⟩
  · simp only [known, read, Except.ok.injEq, Value.mapping.injEq, forall_eq', reduceCtorEq, ne_eq,
      not_false_eq_true, implies_true, true_and, false_and, exists_false, false_or, exists_eq']
    refine ⟨ofDocument_returns_iff, fun result done => ?_, fun failure => escapes_ofDocument⟩
    have success := success_ofDocument done
    exact ⟨iff_of_true success trivial, fun failed => absurd (success.symm.trans failed) (by decide)⟩
  · rw [known]
    refine ⟨iff_of_true ⟨_, rfl⟩ ⟨shallow, fun entries read => absurd read (other entries)⟩,
      fun result done => ?_, fun failure fails => ?_⟩
    · cases done
      exact ⟨iff_of_false Bool.false_ne_true fun ⟨entries, read⟩ => other entries read,
        fun _ => told⟩
    · cases fails

/-- Objects with a format that is a list, with an infinite size, and with a duration beyond the
doubles, and one list more than may be open. -/
theorem ofOutput_escapes :
    ofOutput 2 (.text "\x7b\"format\": []\x7d") = .error (.noAttribute "list" "get") ∧
      ofOutput 2 (.text "\x7b\"format\": \x7b\"size\": Infinity\x7d\x7d") =
        .error .infinityToInteger ∧
      ofDocument (.mapping [(.text "format", .mapping [(.text "duration", .int (10 ^ 309))])]) =
        .error .integerTooLarge ∧
      ofOutput 985 (.text (String.ofList (List.replicate 986 '['))) =
        .error (.nestedTooDeep "array") := by
  refine ⟨?_, ?_, ?_, ofOutput_of_nestedTooDeep ?_⟩
  · exact except_eq_error (by decide +kernel)
  · exact except_eq_error (by decide +kernel)
  · exact except_eq_error (by decide +kernel)
  · rw [String.toList_ofList, ← List.append_nil (List.replicate 986 '[')]
    exact Json.document_nested 985 []

end ProbeResult

end MediaCommand
