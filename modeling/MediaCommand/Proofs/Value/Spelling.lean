import MediaCommand.Proofs.Number.Layout
import MediaCommand.Proofs.Value.Writable

/-!
# Values that read as they are written

A value has two texts: the one it reads as on its own and the one it is written with. They are the
same for integers, texts and the numbers that have their final digits already
(`Value.normalize_eq_spelling_iff`). Neither mentions the word for a missing value unless the caller
chose a text that does.
-/

namespace MediaCommand

open MediaCommand.Action

/-! ## Doubles -/

/-- Texts with signs in front are equal only if those without are. -/
theorem eq_of_signed_eq {first second : List Char} {a b : Bool} (unsigned : '-' ∉ first)
    (bare : '-' ∉ second) (same : signed a first = signed b second) : first = second := by
  cases a <;> cases b
  · exact same
  · have there : '-' ∈ signed true second := List.mem_cons_self
    rw [← same] at there
    exact absurd there unsigned
  · have there : '-' ∈ signed true first := List.mem_cons_self
    rw [same] at there
    exact absurd there bare
  · exact List.cons_injective same

theorem minus_notMem_fixedPoint (places n : Nat) : '-' ∉ fixedPoint places n := fun mem =>
  absurd (mem_fixedPoint mem) (by decide)

/-- A fixed-point text is no text of full precision with another number of places. -/
theorem fixed_ne_write (layout : FloatLayout) {x : Scaled} {places n : Nat} {negative : Bool}
    (pos : 0 < places) (exponent : x.exponent < 0) (other : x.exponent ≠ -places) :
    signed negative (fixedPoint places n) ≠ layout.write x := by
  intro same
  have digits : (-x.exponent).toNat ≠ places := by omega
  rw [FloatLayout.write] at same
  split at same
  · have layout := @FloatLayout.positional_eq_fixedPoint x (-x.exponent).toNat
      (by omega) (by omega)
    rw [layout] at same
    have inner := eq_of_signed_eq (minus_notMem_fixedPoint _ _) (minus_notMem_fixedPoint _ _) same
    exact digits (places_of_fixedPoint_eq pos (by omega) inner).symm
  · have marked : 'e' ∈ signed x.negative (FloatLayout.scientific layout.exponentWidth x) :=
      mem_signed_iff.2 (.inr (FloatLayout.mark_mem_scientific _ _))
    rw [← same] at marked
    exact absurd (mem_signed negative (fun _ => mem_fixedPoint) 'e' marked) (by decide)

namespace FiniteDouble

/-- A text of full precision has a point or the mark of an exponent. -/
theorem marked_text (x : FiniteDouble) : '.' ∈ x.text ∨ 'e' ∈ x.text := by
  rw [text, FloatLayout.write]
  split
  · exact .inl (mem_signed_iff.2 (.inr (FloatLayout.point_mem_positional _)))
  · exact .inr (mem_signed_iff.2 (.inr (FloatLayout.mark_mem_scientific _ _)))

/-- A double is written with its full precision when it is not next above an integer and has at most
three fractional digits. -/
theorem normal_eq_text_iff (x : FiniteDouble) :
    x.normal = x.text ↔ x.isWhole = false ∧ x.fractionDigits ≤ fractionLimit := by
  unfold normal
  cases whole : x.isWhole with
  | true =>
    refine iff_of_false ?_ (fun plain => absurd plain.1 (by simp))
    intro same
    rw [if_pos rfl] at same
    rcases x.marked_text with point | mark
    · rw [← same] at point
      exact absurd (unmarked_toString_int point) (by decide)
    · rw [← same] at mark
      exact absurd (unmarked_toString_int mark) (by decide)
  | false =>
    rw [if_neg (by simp)]
    by_cases long : fractionLimit < x.fractionDigits
    · refine iff_of_false ?_ (fun plain => absurd plain.2 (not_le.2 long))
      have places : 3 < (-x.shortest.exponent).toNat := by
        unfold fractionDigits at long
        split at long
        · exact absurd long (by decide)
        · exact long
      rw [if_pos long]
      exact fixed_ne_write .plain (by decide) (by omega) (by rw [fractionLimit]; omega)
    · rw [if_neg long]
      exact iff_of_true rfl ⟨rfl, not_lt.1 long⟩

end FiniteDouble

/-! ## Decimals -/

namespace Decimal

/-- The full text of a decimal: digits, digits around a point, or a text with an exponent. -/
theorem finiteText_cases (x : Scaled) :
    (x.exponent = 0 ∧ finiteText x = signed x.negative (decimalDigits x.coefficient)) ∨
    (x.exponent < 0 ∧ finiteText x = signed x.negative (FloatLayout.positional x)) ∨
    (x.exponent ≠ -2 ∧ ∃ marked, finiteText x = signed x.negative marked ∧ 'E' ∈ marked ∧
      ∀ c ∈ marked, IsNumeric c) := by
  have some : 0 < (decimalDigits x.coefficient).length := Nat.length_toDigits_pos
  rw [finiteText]
  by_cases plain : x.exponent ≤ 0 ∧ -6 < (decimalDigits x.coefficient).length + x.exponent
  · rw [if_pos plain]
    by_cases zero : x.exponent = 0
    · rw [if_pos zero]
      exact .inl ⟨zero, rfl⟩
    · have below : x.exponent < 0 := by omega
      rw [if_neg zero, FloatLayout.positional, if_neg (not_le.2 below)]
      exact .inr (.inl ⟨below, rfl⟩)
  · have power : ¬((decimalDigits x.coefficient).length : Int) + x.exponent - 1 = 0 := by omega
    have digits : ∀ c ∈ decimalDigits x.coefficient, IsNumeric c := isNumeric_of_digit
    rw [if_neg plain]
    refine .inr (.inr ⟨by omega, _, rfl, ?_⟩)
    dsimp only
    rw [if_neg power]
    refine ⟨by simp, isNumeric_append (isNumeric_append ?_ ?_) ?_⟩
    · exact fun c mem => digits c (List.mem_of_mem_take mem)
    · split
      · simp
      · exact isNumeric_cons (.inr (by simp)) fun c mem => digits c (List.mem_of_mem_drop mem)
    · refine isNumeric_cons (.inr (by simp)) (isNumeric_cons (.inr ?_) isNumeric_of_digit)
      split <;> simp

/-- The text with two places is the full one for the decimals that have just these. -/
theorem cents?_eq_text_iff (x : Scaled) :
    (finite x).cents? = some (finiteText x) ↔ x.exponent = -2 ∧ (finite x).IsWritable := by
  rw [IsWritable, ← hundredths?_isSome_iff, cents?]
  constructor
  · intro same
    obtain ⟨units, found, same⟩ := Option.map_eq_some_iff.1 same
    refine ⟨?_, by rw [found]; rfl⟩
    have point : '.' ∈ fixedPoint 2 units := by simp [fixedPoint]
    rcases finiteText_cases x with ⟨-, text⟩ | ⟨below, text⟩ | ⟨-, _, text, mark, -⟩
    · rw [text, signed_inj] at same
      rw [same] at point
      exact absurd point (point_notMem_decimalDigits _)
    · have layout := @FloatLayout.positional_eq_fixedPoint x (-x.exponent).toNat (by omega)
        (by omega)
      rw [text, signed_inj, layout] at same
      have places := places_of_fixedPoint_eq (by decide) (by omega) same
      omega
    · rw [text, signed_inj] at same
      rw [← same] at mark
      exact absurd (mem_fixedPoint mark) (by decide)
  · rintro ⟨places, fits⟩
    obtain ⟨units, found⟩ := Option.isSome_iff_exists.1 fits
    have exact : units = x.coefficient := by
      rw [hundredths?_eq] at found
      split at found
      · cases found
        rw [Scaled.units_eq_roundDiv, places]
        exact (roundDiv_of_dvd _ Nat.one_pos (Nat.mod_one _)).trans (by simp)
      · cases found
    rw [found, Option.map_some, exact]
    rcases finiteText_cases x with ⟨zero, -⟩ | ⟨-, text⟩ | ⟨other, -⟩
    · omega
    · rw [text, FloatLayout.positional_eq_fixedPoint (by decide) places]
    · exact absurd places other

/-- The text of any decimal is the one it is written with when it has two places, or is a quiet
NaN. -/
def IsPlain : Decimal → Prop
  | .finite x => x.exponent = -2 ∧ (finite x).IsWritable
  | .infinite _ => False
  | .nan _ signaling _ => signaling = false

theorem cents?_plain_iff (d : Decimal) :
    d.cents?.map String.ofList = some d.text ↔ d.IsPlain := by
  cases d with
  | finite x =>
    rw [IsPlain, ← cents?_eq_text_iff]
    cases (finite x).cents? with
    | none => simp
    | some digits => simp [text, String.ofList_inj]
  | infinite negative => simp [cents?, IsPlain]
  | nan negative signaling payload =>
    cases signaling with
    | false => exact iff_of_true rfl rfl
    | true => simp [cents?, IsPlain]

end Decimal

/-! ## Values -/

namespace Value

/-- Whether the text that a value reads as is the one it is written with. -/
def IsPlain (tokens : Tokens) : Value → Prop
  | .null | .bool _ => False
  | .float (.finite x) => x.isWhole = false ∧ x.fractionDigits ≤ FiniteDouble.fractionLimit
  | .decimal d => d.IsPlain
  | .member m _ =>
    (Tokens.resolve m.catalog m.name).outcome tokens = .ok (m.catalog.name ++ "." ++ m.name)
  | value => value.spellingFits

section Shown

variable {tokens : Tokens} {value : Value} (shown : value.IsShown)
include shown

theorem normalize_eq_spelling_of_isShown :
    (normalize value).outcome tokens = .ok (some value.spelling) ↔ value.spellingFits := by
  rw [normalize_of_isShown shown]
  by_cases fits : value.spellingFits
  · rw [spelled_of_fits fits]
    exact iff_of_true rfl fits
  · rw [spelled_of_long fits]
    exact iff_of_false (fun same => by cases same) fits

theorem spell_of_isShown :
    tokens.spell value = if value.spellingFits then some value.spelling else none := by
  unfold Tokens.spell
  rw [normalize_of_isShown shown]
  by_cases fits : value.spellingFits
  · rw [spelled_of_fits fits, if_pos fits]
    rfl
  · rw [spelled_of_long fits, if_neg fits]
    rfl

end Shown

/-- Exactly the plain values are written as they read. -/
theorem normalize_eq_spelling_iff (tokens : Tokens) (value : Value) :
    (normalize value).outcome tokens = .ok (some value.spelling) ↔ value.IsPlain tokens := by
  cases value with
  | null => exact iff_of_false (fun same => by cases same) id
  | bool b =>
    refine iff_of_false (fun same => ?_) id
    have text : (if b then "true" else "false") = if b then "True" else "False" := by
      injection same with same
      injection same
    cases b <;> exact absurd text (by decide)
  | float x =>
    cases x with
    | finite x =>
      rw [IsPlain, ← FiniteDouble.normal_eq_text_iff, ← String.ofList_inj]
      change Except.ok (some (String.ofList x.normal)) = Except.ok (some (String.ofList x.text)) ↔ _
      rw [Except.ok.injEq, Option.some_inj]
    | infinite negative | nan => exact iff_of_true rfl rfl
  | decimal d =>
    rw [IsPlain, ← Decimal.cents?_plain_iff, normalize]
    cases d.cents? with
    | none => exact iff_of_false (fun same => by cases same) (fun same => by cases same)
    | some digits =>
      change Except.ok (some (String.ofList digits)) = Except.ok (some d.text) ↔
        some (String.ofList digits) = some d.text
      rw [Except.ok.injEq]
  | member m worth =>
    rw [IsPlain, normalize_member]
    cases run : Tokens.resolve m.catalog m.name tokens with
    | ok token rest =>
      have written : (some <$> Tokens.resolve m.catalog m.name) tokens = .ok (some token) rest :=
        bind_of_ok run
      rw [outcome_of_ok run, outcome_of_ok written, Except.ok.injEq, Except.ok.injEq,
        Option.some_inj]
      rfl
    | error failure rest =>
      have failed : (some <$> Tokens.resolve m.catalog m.name) tokens = .error failure rest :=
        bind_of_error run
      rw [outcome_of_error run, outcome_of_error failed]
      exact iff_of_false (fun same => by cases same) (fun same => by cases same)
  | text s => exact iff_of_true rfl rfl
  | int _ | list _ | tuple _ | mapping _ | table _ | shown _ _ _ =>
    exact normalize_eq_spelling_of_isShown trivial

/-- A value that is no collection and no other object. -/
def IsScalar : Value → Prop
  | .list _ | .tuple _ | .mapping _ | .table _ | .shown .. => False
  | _ => True

/-- The texts that a caller has chosen: a text itself, and what a variant is called. -/
def chosen (tokens : Tokens) : Value → List String
  | .text s => [s]
  | .member m worth => (Value.member m worth).spelling :: (tokens.spell (.member m worth)).toList
  | _ => []

end Value

/-- Whether a text mentions the word for a missing value. -/
def MentionsNone (text : String) : Prop := "None".toList <:+: text.toList

/-- A character of a number's text, or of a word for what is infinite or no number. -/
def IsNumberText (c : Char) : Prop := IsNumeric c ∨ c ∈ "InfityNas".toList

instance (c : Char) : Decidable (IsNumberText c) := by
  unfold IsNumberText IsNumeric
  infer_instance

theorem o_notMem {text : List Char} (number : ∀ c ∈ text, IsNumberText c) : 'o' ∉ text :=
  fun mem => absurd (number 'o' mem) (by decide)

theorem isNumberText_signed {digits : List Char} (number : ∀ c ∈ digits, IsNumberText c)
    (negative : Bool) : ∀ c ∈ signed negative digits, IsNumberText c := by
  intro c mem
  rcases mem_signed_iff.1 mem with ⟨-, rfl⟩ | mem
  · decide
  · exact number c mem

/-- The texts of NaNs: a word and perhaps a payload. -/
theorem isNumberText_payload {word : List Char} (letters : ∀ c ∈ word, IsNumberText c)
    (negative : Bool) (payload : Nat) :
    ∀ c ∈ signed negative (word ++ if payload = 0 then [] else decimalDigits payload),
      IsNumberText c := by
  refine isNumberText_signed (fun c mem => ?_) negative
  rcases List.mem_append.1 mem with mem | mem
  · exact letters c mem
  · split at mem
    · cases mem
    · exact .inl (isNumeric_of_digit c mem)

/-- A text that mentions the word has its letters. -/
theorem not_mentionsNone {text : String} (without : 'o' ∉ text.toList) : ¬MentionsNone text := by
  intro inside
  exact without (inside.subset (by decide))

theorem isNumeric_int (n : Int) : ∀ c ∈ (toString n).toList, IsNumeric c := by
  rw [toList_toString_int]
  exact isNumeric_signed isNumeric_of_digit _

theorem Double.isNumberText_text (x : Double) : ∀ c ∈ x.text.toList, IsNumberText c := by
  cases x with
  | finite x =>
    rw [text, String.toList_ofList]
    exact fun c mem => .inl (isNumeric_write _ _ c mem)
  | infinite negative =>
    rw [text, String.toList_ofList]
    exact isNumberText_signed (by simp; decide) negative
  | nan =>
    rw [text]
    simp
    decide

theorem Double.isNumberText_normal (x : Double) : ∀ c ∈ x.normal.toList, IsNumberText c := by
  cases x with
  | finite x =>
    rw [normal, String.toList_ofList, FiniteDouble.normal]
    intro c mem
    refine .inl ?_
    revert c mem
    split
    · exact isNumeric_int _
    · split
      · exact isNumeric_signed isNumeric_fixedPoint _
      · exact isNumeric_write _ _
  | infinite negative => exact (Double.infinite negative).isNumberText_text
  | nan => exact Double.nan.isNumberText_text

theorem Decimal.isNumeric_finiteText (x : Scaled) : ∀ c ∈ finiteText x, IsNumeric c := by
  rcases finiteText_cases x with ⟨-, text⟩ | ⟨-, text⟩ | ⟨-, _, text, -, numeric⟩
  · rw [text]
    exact isNumeric_signed isNumeric_of_digit _
  · rw [text]
    exact isNumeric_signed (isNumeric_positional x) _
  · rw [text]
    exact isNumeric_signed numeric _

theorem Decimal.isNumberText_text (d : Decimal) : ∀ c ∈ d.text.toList, IsNumberText c := by
  cases d with
  | finite x =>
    rw [text, String.toList_ofList]
    exact fun c mem => .inl (isNumeric_finiteText x c mem)
  | infinite negative =>
    rw [text, String.toList_ofList]
    exact isNumberText_signed (by simp; decide) negative
  | nan negative signaling payload =>
    rw [text, String.toList_ofList]
    refine isNumberText_payload ?_ negative payload
    cases signaling <;> simp <;> decide

theorem Decimal.isNumberText_cents (d : Decimal) :
    ∀ digits ∈ d.cents?, ∀ c ∈ digits, IsNumberText c := by
  intro digits written
  cases d with
  | finite x =>
    obtain ⟨units, -, rfl⟩ := Option.map_eq_some_iff.1 written
    exact fun c mem => .inl (isNumeric_signed isNumeric_fixedPoint _ c mem)
  | infinite negative => cases written
  | nan negative signaling payload =>
    cases signaling with
    | false =>
      cases written
      exact isNumberText_payload (by simp; decide) negative payload
    | true => cases written

namespace Value

variable {value : Value} {tokens : Tokens}

/-- Values that are present and chosen without the word read as texts without it. -/
theorem not_mentionsNone_spelling (scalar : value.IsScalar) (present : value ≠ .null)
    (chosen : ∀ text ∈ value.chosen tokens, ¬MentionsNone text) : ¬MentionsNone value.spelling := by
  cases value with
  | null => exact absurd rfl present
  | bool b => cases b <;> exact not_mentionsNone (by decide)
  | int n => exact not_mentionsNone (o_notMem fun c mem => .inl (isNumeric_int n c mem))
  | float x => exact not_mentionsNone (o_notMem x.isNumberText_text)
  | decimal d => exact not_mentionsNone (o_notMem d.isNumberText_text)
  | text s => exact chosen s (List.mem_singleton.2 rfl)
  | member m worth => exact chosen _ List.mem_cons_self
  | _ => cases scalar

/-- They are written as texts without it, too. -/
theorem not_mentionsNone_spell (scalar : value.IsScalar)
    (chosen : ∀ text ∈ value.chosen tokens, ¬MentionsNone text) :
    ∀ text ∈ tokens.spell value, ¬MentionsNone text := by
  intro text written
  cases value with
  | null => cases written
  | bool b =>
    cases written
    cases b <;> exact not_mentionsNone (by decide)
  | int n =>
    have shown : (Value.int n).IsShown := trivial
    rw [spell_of_isShown shown] at written
    split at written
    · cases written
      exact not_mentionsNone (o_notMem fun c mem => .inl (isNumeric_int n c mem))
    · cases written
  | float x =>
    cases written
    exact not_mentionsNone (o_notMem x.isNumberText_normal)
  | decimal d =>
    rw [Tokens.spell, normalize] at written
    cases found : d.cents? with
    | none =>
      rw [found] at written
      cases written
    | some digits =>
      rw [found] at written
      cases written
      refine not_mentionsNone ?_
      rw [String.toList_ofList]
      exact o_notMem (d.isNumberText_cents digits found)
  | text s =>
    cases written
    exact chosen _ (List.mem_singleton.2 rfl)
  | member m worth =>
    exact chosen text (List.mem_cons_of_mem _ (Option.mem_toList.2 written))
  | _ => cases scalar

end Value

end MediaCommand
