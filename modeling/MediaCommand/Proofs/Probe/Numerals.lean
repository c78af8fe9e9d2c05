import MediaCommand.Probe.Json
import MediaCommand.Proofs.Number.Layout
import MediaCommand.Proofs.Number.Numeral

/-!
# Integers in documents

An integer may stand in a document as a number or as a text between quotes. Where the digits end
with it (`Json.Ends`) and are not too many, the number reads as the integer (`Json.value_numeral`).
A text of plain characters reads as itself (`Json.value_plain`), and the text of an integer as that
integer, again unless it is too long (`integer?_toString`).
-/

namespace MediaCommand

theorem signed_natAbs (n : Int) :
    (if decide (n < 0) then -(n.natAbs : Int) else n.natAbs) = n := by
  simp only [decide_eq_true_eq]
  split <;> omega

/-- Latin digits behind a minus or none read as the integer that they make, unless they are too
many. -/
theorem integer?_signed (negative : Bool) {digits : List Char}
    (only : ∀ c ∈ digits, isAsciiDigit c = true) (nonempty : digits ≠ []) :
    integer? (signed negative digits) = if digits.length ≤ digitLimit then
      some (if negative then -(digitsValue digits : Int) else digitsValue digits) else none := by
  have numeral : ∀ c ∈ digits, isAsciiDigit c = true ∨ c = '.' := fun c mem => .inl (only c mem)
  have joined : ∀ c ∈ signed negative digits, c ≠ '_' := by
    intro c mem
    rintro rfl
    rcases mem_signed_iff.1 mem with ⟨-, same⟩ | mem
    · cases same
    · exact absurd (only _ mem) (by decide)
  have magnitude : natural? digits = some (digitsValue digits) :=
    if_pos ⟨nonempty, List.all_eq_true.2 only⟩
  rw [integer?, numeralBody_signed _ numeral, dropUnderscores?_eq none (by simp) joined]
  simp only [bind, Option.bind, takeSign_signed _ numeral, magnitude, pure]
  by_cases few : digits.length ≤ digitLimit
  · rw [if_neg (Nat.not_lt.2 few), if_pos few]
  · rw [if_pos (Nat.not_le.1 few), if_neg few]

/-- An integer reads back from its text, unless it is too long. -/
theorem integer?_toString (n : Int) :
    integer? (toString n).toList = if IsConvertible n then some n else none := by
  have digits : ∀ c ∈ decimalDigits n.natAbs, isAsciiDigit c = true := fun c mem =>
    isAsciiDigit_of_mem_decimalDigits mem
  rw [toList_toString_int, integer?_signed _ digits Nat.toDigits_ne_nil, digitsValue_decimalDigits,
    signed_natAbs]
  rfl

namespace Json

/-- What follows a number does not go on with it. -/
def Ends (rest : List Char) : Prop :=
  ∀ c ∈ rest.head?, isAsciiDigit c = false ∧ c ≠ '.' ∧ c ≠ 'e' ∧ c ≠ 'E'

variable {rest : List Char}

theorem fraction_of_ends (ends : Ends rest) : fraction rest = ([], rest) := by
  unfold fraction
  split
  · exact absurd rfl (ends '.' rfl).2.1
  · rfl

theorem exponent_of_ends (ends : Ends rest) : exponent rest = ([], rest) := by
  cases rest with
  | nil => rfl
  | cons c rest =>
    obtain ⟨-, -, small, large⟩ := ends c rfl
    simp [exponent, small, large]

theorem digits_of_ends (ends : Ends rest) {whole : List Char}
    (only : ∀ c ∈ whole, isAsciiDigit c = true) : digits (whole ++ rest) = (whole, rest) := by
  obtain ⟨taken, dropped⟩ := takeWhile_run only fun c mem => (ends c mem).1
  rw [digits, taken, dropped]

/-- Digits without a zero in front of others are the integer that they make, unless they are too
many. -/
theorem number_signed (ends : Ends rest) (negative : Bool) {whole : List Char}
    (only : ∀ c ∈ whole, isAsciiDigit c = true) (nonempty : whole ≠ [])
    (zero : whole.head? = some '0' → whole = ['0']) :
    number (signed negative whole ++ rest) =
      if digitLimit < whole.length then .error (.numeralTooLong whole.length)
      else .ok (.int (if negative then -(digitsValue whole : Int) else digitsValue whole), rest) := by
  have noFraction := fraction_of_ends ends
  have noPower := exponent_of_ends ends
  obtain ⟨c, others, rfl⟩ := List.exists_cons_of_ne_nil nonempty
  have noMinus : c ≠ '-' := by
    rintro rfl
    exact absurd (only '-' (by simp)) (by decide)
  by_cases leading : c = '0'
  · subst leading
    obtain rfl : others = [] := by simpa using zero rfl
    cases negative <;> simp [number, signed, noFraction, noPower]
  · have all : digits (c :: (others ++ rest)) = (c :: others, rest) := digits_of_ends ends only
    cases negative <;> simp [number, signed, noMinus, leading, all, noFraction, noPower]

theorem number_numeral (ends : Ends rest) (n : Int) :
    number ((toString n).toList ++ rest) = if IsConvertible n then .ok (.int n, rest)
      else .error (.numeralTooLong (digitCount n.natAbs)) := by
  have digits : ∀ c ∈ decimalDigits n.natAbs, isAsciiDigit c = true := fun c mem =>
    isAsciiDigit_of_mem_decimalDigits mem
  have zero : (decimalDigits n.natAbs).head? = some '0' → decimalDigits n.natAbs = ['0'] := by
    intro front
    rcases Nat.eq_zero_or_pos n.natAbs with none | pos
    · rw [none]
      rfl
    · exact absurd front (head?_decimalDigits pos)
  rw [toList_toString_int, number_signed ends _ digits Nat.toDigits_ne_nil zero,
    digitsValue_decimalDigits, signed_natAbs]
  by_cases few : IsConvertible n
  · rw [if_pos few]
    exact if_neg (Nat.not_lt.2 few)
  · rw [if_neg few]
    exact if_pos (Nat.not_le.1 few)

/-- No word starts like a number. -/
theorem word?_signed (negative : Bool) {whole : List Char}
    (only : ∀ c ∈ whole, isAsciiDigit c = true) (nonempty : whole ≠ []) :
    word? (signed negative whole ++ rest) = none := by
  obtain ⟨c, others, rfl⟩ := List.exists_cons_of_ne_nil nonempty
  have letters : ∀ letter ∈ ['n', 't', 'f', 'N', 'I', '-'], letter ≠ c := by
    have noDigits : ['n', 't', 'f', 'N', 'I', '-'].all (!isAsciiDigit ·) = true := by decide
    rintro _ mem rfl
    have other := List.all_eq_true.1 noDigits _ mem
    rw [only _ List.mem_cons_self] at other
    cases other
  simp only [List.forall_mem_cons] at letters
  rw [word?, List.findSome?_eq_none_iff]
  intro word mem
  rw [if_neg]
  simp only [words, List.mem_cons, List.not_mem_nil, or_false] at mem
  cases negative <;> rcases mem with rfl | rfl | rfl | rfl | rfl | rfl <;>
    simp [signed, List.isPrefixOf, letters]

/-- What starts with neither a quote nor a bracket, nor like a word, is read as a number. -/
theorem value_of_number {text : List Char} (noWord : word? text = none)
    (plain : ∀ c ∈ text.head?, c ∉ ['"', '\x7b', '[']) (depth fuel : Nat) :
    value depth (fuel + 1) text = number text := by
  unfold value
  dsimp only
  split
  · exact absurd (plain '"' rfl) (by decide)
  · exact absurd (plain '\x7b' rfl) (by decide)
  · exact absurd (plain '[' rfl) (by decide)
  · rw [noWord]

theorem value_signed (depth fuel : Nat) (negative : Bool) {whole : List Char}
    (only : ∀ c ∈ whole, isAsciiDigit c = true) (nonempty : whole ≠ []) :
    value depth (fuel + 1) (signed negative whole ++ rest) =
      number (signed negative whole ++ rest) := by
  refine value_of_number (word?_signed negative only nonempty) ?_ depth fuel
  obtain ⟨c, others, rfl⟩ := List.exists_cons_of_ne_nil nonempty
  have brackets : ['"', '\x7b', '['].all (!isAsciiDigit ·) = true := by decide
  intro first mem bracket
  cases negative with
  | false =>
    cases mem
    have other := List.all_eq_true.1 brackets _ bracket
    rw [only _ List.mem_cons_self] at other
    cases other
  | true =>
    cases mem
    exact absurd bracket (by decide)

/-- An integer in digits reads as itself, unless it is too long. -/
theorem value_numeral (ends : Ends rest) (depth fuel : Nat) (n : Int) :
    value depth (fuel + 1) ((toString n).toList ++ rest) =
      if IsConvertible n then .ok (.int n, rest)
      else .error (.numeralTooLong (digitCount n.natAbs)) := by
  rw [← number_numeral ends, toList_toString_int]
  exact value_signed depth fuel _ (fun c mem => isAsciiDigit_of_mem_decimalDigits mem)
    Nat.toDigits_ne_nil

theorem string_plain {text : List Char} (plain : ∀ c ∈ text, 32 ≤ c.toNat ∧ c ≠ '"' ∧ c ≠ '\\')
    {fuel : Nat} (opening : Nat) (done : List Char) (enough : text.length < fuel) :
    string fuel opening done (text ++ '"' :: rest) =
      .ok (String.ofList (done.reverse ++ text), rest) := by
  induction text generalizing fuel done with
  | nil =>
    obtain ⟨fuel, rfl⟩ : ∃ k, fuel = k + 1 := ⟨fuel - 1, by simp at enough; omega⟩
    simp [string]
  | cons c text ih =>
    obtain ⟨fuel, rfl⟩ : ∃ k, fuel = k + 1 := ⟨fuel - 1, by omega⟩
    obtain ⟨visible, noQuote, noEscape⟩ := plain c (by simp)
    have after := ih (fun c mem => plain c (List.mem_cons_of_mem _ mem)) (c :: done)
      (Nat.lt_of_succ_lt_succ enough)
    rw [List.reverse_cons, List.append_assoc] at after
    simpa [string, noQuote, noEscape, Nat.not_lt.2 visible] using after

/-- A text of plain characters between quotes reads as itself. -/
theorem value_plain {text : List Char} (plain : ∀ c ∈ text, 32 ≤ c.toNat ∧ c ≠ '"' ∧ c ≠ '\\')
    (depth fuel : Nat) :
    value depth (fuel + 1) ('"' :: (text ++ '"' :: rest)) =
      .ok (.text (String.ofList text), rest) := by
  have enough : text.length < (text ++ '"' :: rest).length.succ := by
    rw [List.length_append]
    omega
  have read : string _ ('"' :: (text ++ '"' :: rest)).length [] (text ++ '"' :: rest) =
      .ok (String.ofList text, rest) := string_plain plain _ [] enough
  simp only [value, read]
  rfl

/-- The text of an integer between quotes reads as that text. -/
theorem value_quoted_numeral (depth fuel : Nat) (n : Int) :
    value depth (fuel + 1) ('"' :: ((toString n).toList ++ '"' :: rest)) =
      .ok (.text (toString n), rest) := by
  have plain : ∀ c ∈ (toString n).toList, 32 ≤ c.toNat ∧ c ≠ '"' ∧ c ≠ '\\' := by
    intro c mem
    rw [toList_toString_int, mem_signed_iff] at mem
    rcases mem with ⟨-, rfl⟩ | mem
    · decide
    · have digit := isAsciiDigit_of_mem_decimalDigits mem
      simp only [isAsciiDigit, Bool.and_eq_true, decide_eq_true_eq, Char.le_def,
        UInt32.le_iff_toNat_le] at digit
      refine ⟨Nat.le_trans (by decide) digit.1, ?_, ?_⟩
      · rintro rfl
        exact absurd digit.1 (by decide)
      · rintro rfl
        exact absurd digit.2 (by decide)
  rw [value_plain plain, String.ofList_toList]

/-- An object of one member ends as the reading of the member does. -/
theorem value_member {key text : List Char} {depth : Nat} {read : Except JsonError Value}
    (plain : ∀ c ∈ key, 32 ≤ c.toNat ∧ c ≠ '"' ∧ c ≠ '\\')
    (solid : skipSpace text = text) {fuel : Nat}
    (inside : value depth fuel text = read.map fun item => (item, '\x7d' :: rest)) :
    value (depth + 1) (fuel + 2) ('\x7b' :: '"' :: (key ++ '"' :: ':' :: text)) =
      read.map fun item => (.mapping [(.text (String.ofList key), item)], rest) := by
  have enough : key.length < (key ++ '"' :: ':' :: text).length.succ := by
    rw [List.length_append]
    omega
  have name : string _ ('"' :: (key ++ '"' :: ':' :: text)).length [] (key ++ '"' :: ':' :: text) =
      .ok (String.ofList key, ':' :: text) := string_plain plain _ [] enough
  have colon : skipSpace (':' :: text) = ':' :: text := rfl
  have closed : skipSpace ('\x7d' :: rest) = '\x7d' :: rest := rfl
  unfold value
  change members depth (fuel + 1) [] ('"' :: (key ++ '"' :: ':' :: text)) = _
  unfold members
  simp only [name, bind, Except.bind, colon, solid, inside]
  cases read with
  | error failure => rfl
  | ok item =>
    simp only [Except.map, closed]
    rfl

end Json

end MediaCommand
