import MediaCommand.Proofs.Log.Sanitized

/-!
# Conversions without line breaks

A value `IsInline` if both of its texts are unbroken and it is not the code point of a line break.
Every conversion makes an unbroken text of such a value, in any layout
(`Conversion.unbroken_convert`). `Value.Harmless` says by kind which values are inline once they have
been sanitized (`Value.isInline_sanitized_iff`).
-/

namespace MediaCommand

/-! ## Layouts -/

theorem unbroken_decimalDigits (n : Nat) : Unbroken (decimalDigits n) :=
  unbroken_toDigits (by decide) (by decide) n

theorem unbroken_zeros (n : Nat) : Unbroken (List.replicate n '0') :=
  unbroken_replicate n (by decide)

theorem unbroken_paddedDigits (width n : Nat) : Unbroken (paddedDigits width n) := by
  simp [paddedDigits, unbroken_zeros, unbroken_decimalDigits]

namespace Layout

variable {layout : Layout} {text : List Char}

theorem unbroken_padded (unbroken : Unbroken text) : Unbroken (layout.padded text) := by
  have blanks (n : Nat) : Unbroken (List.replicate n ' ') := unbroken_replicate n (by decide)
  unfold padded
  dsimp only
  split
  · simp [unbroken, blanks]
  · simp [unbroken, blanks]

theorem unbroken_text {text : String} (unbroken : Unbroken text.toList) :
    Unbroken (layout.text text) := by
  unfold Layout.text
  split
  · next limit _ => exact unbroken_padded (unbroken.mono (List.take_subset limit _))
  · exact unbroken_padded unbroken

theorem unbroken_sign (negative : Bool) : Unbroken (layout.sign negative) := by
  unfold sign
  split_ifs <;> simp [IsBreak]

theorem unbroken_number {mark digits : List Char} (negative : Bool) (unmarked : Unbroken mark)
    (unbroken : Unbroken digits) : Unbroken (layout.number negative mark digits) := by
  unfold number
  dsimp only
  split
  · simp [unbroken_sign, unmarked, unbroken, unbroken_zeros]
  · exact unbroken_padded (by simp [unbroken_sign, unmarked, unbroken])

theorem unbroken_integer {base : Nat} {mark : List Char} (many : 1 < base) (few : base ≤ 16)
    (unmarked : Unbroken mark) (n : Int) : Unbroken (layout.integer base mark n) := by
  refine unbroken_number _ ?_ ?_
  · split
    · exact unmarked
    · exact unbroken_nil
  · simp [unbroken_zeros, unbroken_toDigits many few]

end Layout

/-! ## Notations -/

section Notations

variable {keep : Bool} {whole fraction : List Char}

theorem unbroken_pointed (front : Unbroken whole) (behind : Unbroken fraction) :
    Unbroken (pointed keep whole fraction) := by
  unfold pointed
  split
  · exact front
  · simp [front, behind, IsBreak]

theorem unbroken_withoutZeros (behind : Unbroken fraction) :
    Unbroken (withoutZeros keep fraction) := by
  unfold withoutZeros
  split
  · exact behind
  · refine behind.mono fun c mem => ?_
    exact List.mem_reverse.1 ((List.dropWhile_suffix _).subset (List.mem_reverse.1 mem))

theorem unbroken_powerMark (power : Int) : Unbroken (powerMark power) := by
  unfold powerMark
  split <;> simp [unbroken_paddedDigits, IsBreak]

namespace Scaled

theorem unbroken_places (places n : Nat) :
    Unbroken (if places = 0 then [] else paddedDigits places n) := by
  split
  · exact unbroken_nil
  · exact unbroken_paddedDigits places n

variable (x : Scaled) (places : Nat)

theorem unbroken_fixedNotation : Unbroken (x.fixedNotation keep places) :=
  unbroken_pointed (unbroken_decimalDigits _) (unbroken_places _ _)

theorem unbroken_exponential : Unbroken (x.exponential keep places) := by
  have digits (width n : Nat) := unbroken_paddedDigits width n
  refine unbroken_append.2 ⟨unbroken_pointed ?_ ?_, unbroken_powerMark _⟩
  · exact (digits _ _).mono (List.take_subset _ _)
  · exact (digits _ _).mono (List.drop_subset _ _)

theorem unbroken_general : Unbroken (x.general keep places) := by
  have digits (width n : Nat) := unbroken_paddedDigits width n
  unfold general
  dsimp only
  split
  · exact unbroken_pointed (unbroken_decimalDigits _) (unbroken_withoutZeros (unbroken_places _ _))
  · refine unbroken_append.2 ⟨unbroken_pointed ?_ (unbroken_withoutZeros ?_), unbroken_powerMark _⟩
    · exact (digits _ _).mono (List.take_subset _ _)
    · exact (digits _ _).mono (List.drop_subset _ _)

end Scaled

end Notations

theorem Layout.unbroken_real {layout : Layout} (conversion : Char) (x : Double) :
    Unbroken (layout.real conversion x) := by
  cases x with
  | nan => exact unbroken_number _ unbroken_nil (by simp [IsBreak])
  | infinite negative => exact unbroken_number _ unbroken_nil (by simp [IsBreak])
  | finite x =>
    refine unbroken_number _ unbroken_nil ?_
    split_ifs
    · exact x.toScaled.unbroken_exponential _
    · exact x.toScaled.unbroken_fixedNotation _
    · exact x.toScaled.unbroken_general _

/-! ## Values -/

/-- Neither text of a value has a line break, nor is it the code point of one. -/
structure Value.IsInline (value : Value) : Prop where
  spelling : Unbroken value.spelling.toList
  literal : Unbroken value.literal.toList
  code : value ≠ .int 10 ∧ value ≠ .int 13

namespace Conversion

variable {text : List Char} {value : Value}

theorem not_isBreak_of_le {c : Char} (visible : 32 ≤ c.toNat) : ¬IsBreak c := by
  rintro (rfl | rfl)
  · exact absurd visible (by decide)
  · exact absurd visible (by decide)

theorem not_isBreak_toUpper {c : Char} (solid : ¬IsBreak c) : ¬IsBreak c.toUpper := by
  unfold Char.toUpper
  split
  · next small =>
    have lower : 97 ≤ c.toNat := UInt32.le_iff_toNat_le.1 small.1
    have upper : c.toNat ≤ 122 := UInt32.le_iff_toNat_le.1 small.2
    apply not_isBreak_of_le
    change 32 ≤ (c.val + ('A'.val - 'a'.val)).toNat
    simp only [UInt32.toNat_add, Char.toNat_val, Char.reduceVal, UInt32.reduceSub,
      UInt32.reduceToNat]
    omega
  · exact solid

theorem unbroken_cased (conversion : Char) (unbroken : Unbroken text) :
    Unbroken (cased conversion text) := by
  unfold cased
  split
  · intro c mem
    obtain ⟨d, there, rfl⟩ := List.mem_map.1 mem
    exact not_isBreak_toUpper (unbroken d there)
  · exact unbroken

theorem unbroken_latin {text : String} (unbroken : Unbroken text.toList) :
    Unbroken (latin text).toList := by
  rw [latin, String.toList_ofList, unbroken_flatMap]
  intro c mem
  split
  · simpa using unbroken c mem
  · exact unbroken_codeEscape c

theorem not_isBreak_ofCode {n : Int} {c : Char} (other : n ≠ 10 ∧ n ≠ 13)
    (converted : character.ofCode n = .ok c) : ¬IsBreak c := by
  unfold character.ofCode at converted
  split at converted
  · next valid =>
    cases converted
    have code : (Char.ofNat n.toNat).toNat = n.toNat := by
      rw [Char.ofNat, dif_pos valid.2]
      rfl
    rintro (broken | broken)
    · rw [broken] at code
      change 10 = n.toNat at code
      omega
    · rw [broken] at code
      change 13 = n.toNat at code
      omega
  · cases converted

/-- Only the code points of line breaks are converted to line breaks. -/
theorem not_isBreak_character {c : Char} (given : value.IsInline)
    (converted : character value = .ok c) : ¬IsBreak c := by
  unfold character at converted
  split at converted
  · next s =>
    split at converted
    · next single =>
      cases converted
      have spelled := given.spelling
      rw [Value.spelling, single] at spelled
      exact spelled c (List.mem_singleton.2 rfl)
    · cases converted
  · next n =>
    refine not_isBreak_ofCode ⟨?_, ?_⟩ converted
    · rintro rfl
      exact given.code.1 rfl
    · rintro rfl
      exact given.code.2 rfl
  · next b =>
    refine not_isBreak_ofCode ?_ converted
    cases b <;> decide
  · cases converted

/-- **No conversion adds a line break.** -/
theorem unbroken_convert {layout : Layout} {conversion : Char} {place : Nat}
    (given : value.IsInline) (converted : convert layout conversion place value = .ok text) :
    Unbroken text := by
  have octal : Unbroken "0o".toList := by simp [IsBreak]
  have hexadecimal : Unbroken "0x".toList := by simp [IsBreak]
  unfold convert at converted
  split at converted
  case h_1 =>
    cases converted
    exact Layout.unbroken_text given.spelling
  case h_2 =>
    cases converted
    exact Layout.unbroken_text given.literal
  case h_3 =>
    cases converted
    exact Layout.unbroken_text (unbroken_latin given.literal)
  case h_4 =>
    obtain ⟨c, read, shown⟩ := except_bind_eq_ok.1 converted
    cases shown
    exact Layout.unbroken_padded (by simpa using not_isBreak_character given read)
  case h_5 | h_6 | h_7 =>
    obtain ⟨n, -, shown⟩ := except_bind_eq_ok.1 converted
    cases shown
    exact Layout.unbroken_integer (by decide) (by decide) unbroken_nil n
  case h_8 =>
    obtain ⟨n, -, shown⟩ := except_bind_eq_ok.1 converted
    cases shown
    exact Layout.unbroken_integer (by decide) (by decide) octal n
  case h_9 | h_10 =>
    obtain ⟨n, -, shown⟩ := except_bind_eq_ok.1 converted
    cases shown
    exact unbroken_cased _ (Layout.unbroken_integer (by decide) (by decide) hexadecimal n)
  case h_11 | h_12 | h_13 | h_14 | h_15 | h_16 =>
    obtain ⟨x, -, shown⟩ := except_bind_eq_ok.1 converted
    cases shown
    exact unbroken_cased _ (Layout.unbroken_real _ x)
  case h_17 => cases converted

end Conversion

namespace Value

/-- By kind, which values cannot bring a line break into a message. -/
def Harmless : Value → Prop
  | .int n => n ≠ 10 ∧ n ≠ 13
  | .shown _ alone inside => Unbroken alone.toList ∧ Unbroken inside.toList
  | value => value.Quiet

theorem isInline_iff_quiet {value : Value} (code : value ≠ .int 10 ∧ value ≠ .int 13)
    (spelled : value.Quiet → Unbroken value.spelling.toList) : value.IsInline ↔ value.Quiet := by
  rw [← unbroken_literal_iff] at spelled ⊢
  exact ⟨IsInline.literal, fun unbroken => ⟨spelled unbroken, unbroken, code⟩⟩

theorem isInline_text_iff (s : String) : (Value.text s).IsInline ↔ Unbroken s.toList :=
  ⟨IsInline.spelling, fun unbroken => ⟨unbroken, unbroken_quoted s, by simp⟩⟩

/-- These are the values that are inline once they are sanitized. -/
theorem isInline_sanitized_iff (value : Value) :
    (LogArguments.sanitizeValue value).IsInline ↔ value.Harmless := by
  cases value with
  | int n =>
    have digits : Unbroken (toString n).toList :=
      unbroken_of_number fun c mem => .inl (isNumeric_int n c mem)
    constructor
    · intro ⟨_, _, feed, ret⟩
      exact ⟨fun same => feed (congrArg Value.int same), fun same => ret (congrArg Value.int same)⟩
    · intro ⟨feed, ret⟩
      exact ⟨digits, digits, fun same => feed (Value.int.inj same),
        fun same => ret (Value.int.inj same)⟩
  | text s =>
    refine iff_of_true ((isInline_text_iff _).2 ?_) trivial
    rw [String.toList_ofList]
    exact unbroken_sanitize s.toList
  | shown kind alone inside =>
    exact ⟨fun unbroken => ⟨unbroken.spelling, unbroken.literal⟩,
      fun ⟨spelling, literal⟩ => ⟨spelling, literal, by simp [LogArguments.sanitizeValue]⟩⟩
  | decimal d =>
    refine isInline_iff_quiet (by simp [LogArguments.sanitizeValue]) fun _ => ?_
    exact unbroken_of_number d.isNumberText_text
  | member m worth =>
    refine isInline_iff_quiet (by simp [LogArguments.sanitizeValue]) fun quiet => ?_
    obtain ⟨catalog, name, -⟩ : Unbroken m.catalog.name.toList ∧ Unbroken m.name.toList ∧ _ := quiet
    change Unbroken (m.catalog.name ++ "." ++ m.name).toList
    simp [catalog, name, IsBreak]
  | table entries =>
    refine isInline_iff_quiet (by simp [LogArguments.sanitizeValue]) fun _ => ?_
    exact (unbroken_table entries).2
  | _ =>
    exact isInline_iff_quiet (by simp [LogArguments.sanitizeValue]) (unbroken_literal_iff _).2

end Value

end MediaCommand
