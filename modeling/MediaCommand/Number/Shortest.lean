import MediaCommand.Number.Double

/-!
# The shortest decimal of a double

`FiniteDouble.shortest` is the decimal with the fewest digits that reads back as the double, and
among those the nearest. `FloatLayout` says how such a decimal is spelled.
-/

namespace MediaCommand

/-- The greatest power of ten at or below the positive rational `num / den`. -/
def decimalPower (num den : Nat) : Int :=
  let estimate : Int := (digitCount num : Int) - digitCount den
  if den * 10 ^ estimate.toNat ≤ num * 10 ^ (-estimate).toNat then estimate else estimate - 1

namespace FiniteDouble

/-- Whether a decimal is read as `x`. -/
def ReadsBack (x : FiniteDouble) (decimal : Scaled) : Prop := Double.ofScaled decimal = .finite x

instance (x : FiniteDouble) (decimal : Scaled) : Decidable (x.ReadsBack decimal) := by
  unfold ReadsBack; infer_instance

/-- Of the two multiples of `10 ^ power` around `x`, the nearest that reads back. -/
def atPower? (x : FiniteDouble) (power : Int) : Option Scaled :=
  let num := x.significand * 2 ^ x.exponent.toNat * 10 ^ (-power).toNat
  let den := 2 ^ (-x.exponent).toNat * 10 ^ power.toNat
  let low : Scaled := ⟨x.negative, num / den, power⟩
  let high : Scaled := ⟨x.negative, num / den + 1, power⟩
  let nearest : Scaled := ⟨x.negative, roundDiv num den .toEven, power⟩
  if x.ReadsBack low ∧ x.ReadsBack high then some nearest
  else if x.ReadsBack low then some low
  else if x.ReadsBack high then some high
  else none

/-- A coefficient that has run up to a power of ten is one unit of that power. -/
def carried (decimal : Scaled) (digits : Nat) : Scaled :=
  if decimal.coefficient = 10 ^ digits then ⟨decimal.negative, 1, decimal.exponent + digits⟩
  else decimal

/-- The fewest digits that read back, and the nearest of those. Seventeen always do. -/
def shortest (x : FiniteDouble) : Scaled :=
  if x.isZero then ⟨x.negative, 0, 0⟩
  else
    let top := decimalPower (x.significand * 2 ^ x.exponent.toNat) (2 ^ (-x.exponent).toNat)
    let tries := (List.range 17).map (· + 1)
    (tries.findSome? fun (digits : Nat) =>
      (x.atPower? (top - digits + 1)).map (carried · digits)).getD x.toScaled

end FiniteDouble

/-- The spelling of a decimal of full precision. -/
structure FloatLayout where
  /-- Leading powers from here on are written without an exponent … -/
  positionalFrom : Int
  /-- … up to, and not including, this one. -/
  positionalBelow : Int
  /-- The least number of digits of a written exponent. -/
  exponentWidth : Nat

/-- Positional from `0.0001` up to sixteen integer digits, always with a fractional digit;
otherwise one digit before the point and a signed exponent of at least two digits. -/
def FloatLayout.plain : FloatLayout := ⟨-4, 16, 2⟩

namespace FloatLayout

/-- The magnitude without an exponent. -/
def positional (x : Scaled) : List Char :=
  let digits := decimalDigits x.coefficient
  let before := digits.length + x.exponent
  if 0 ≤ x.exponent then digits ++ List.replicate x.exponent.toNat '0' ++ ['.', '0']
  else if 0 < before then digits.take before.toNat ++ '.' :: digits.drop before.toNat
  else '0' :: '.' :: (List.replicate (-before).toNat '0' ++ digits)

/-- The magnitude with one digit before the point and an exponent. -/
def scientific (width : Nat) (x : Scaled) : List Char :=
  let digits := decimalDigits x.coefficient
  let power := x.leadingPower
  let fraction := if digits.length ≤ 1 then [] else '.' :: digits.drop 1
  let sign := if power < 0 then '-' else '+'
  digits.take 1 ++ fraction ++ 'e' :: sign :: paddedDigits width power.natAbs

def write (layout : FloatLayout) (x : Scaled) : List Char :=
  let power := x.leadingPower
  signed x.negative
    (if layout.positionalFrom ≤ power ∧ power < layout.positionalBelow then positional x
     else scientific layout.exponentWidth x)

end FloatLayout

namespace FiniteDouble

/-- The full-precision text. -/
def text (x : FiniteDouble) : List Char := FloatLayout.plain.write x.shortest

end FiniteDouble

/-- The full-precision text of any double. -/
def Double.text : Double → String
  | .finite x => String.ofList x.text
  | .infinite negative => String.ofList (signed negative "inf".toList)
  | .nan => "nan"

end MediaCommand
