import MediaCommand.Number.Double

/-!
# Decimal arithmetic values

A `Decimal` is a `Scaled` or one of the special values. `cents?` rounds to two places within a
precision of 28 digits; `text` is the full text, with an exponent only where the coefficient
alone would not show the value.
-/

namespace MediaCommand

/-- A decimal value. A NaN may be signaling and may carry a payload; `0` is none. -/
inductive Decimal where
  | finite (x : Scaled)
  | infinite (negative : Bool)
  | nan (negative signaling : Bool) (payload : Nat)
  deriving DecidableEq, Repr

namespace Decimal

/-- The number of digits a rounded decimal may have. -/
def precision : Nat := 28

/-- Rounded to two fractional digits, half away from zero, as a count of hundredths. It fails
when the result has more than `precision` digits. -/
def hundredths? (x : Scaled) : Option Nat :=
  if x.coefficient = 0 then some 0
  else if (precision : Int) < digitCount x.coefficient + (x.exponent + 2) then none
  else
    let units := x.units 2 .awayFromZero
    if precision < digitCount units then none else some units

private def payloadText (payload : Nat) : List Char :=
  if payload = 0 then [] else decimalDigits payload

/-- The text rounded to two places. A quiet NaN stays itself; an infinity, a signaling NaN and a
result of more than `precision` digits have none. -/
def cents? : Decimal → Option (List Char)
  | .finite x => (hundredths? x).map fun units => signed x.negative (fixedPoint 2 units)
  | .nan negative false payload => some (signed negative ("NaN".toList ++ payloadText payload))
  | .nan _ true _ => none
  | .infinite _ => none

/-- The text of a finite value. The exponent is shown when it is positive or the first digit is
more than six places behind the point. -/
def finiteText (x : Scaled) : List Char :=
  let digits := decimalDigits x.coefficient
  let before := digits.length + x.exponent
  signed x.negative <|
    if x.exponent ≤ 0 ∧ -6 < before then
      if x.exponent = 0 then digits
      else if 0 < before then digits.take before.toNat ++ '.' :: digits.drop before.toNat
      else '0' :: '.' :: (List.replicate (-before).toNat '0' ++ digits)
    else
      let fraction := if digits.length ≤ 1 then [] else '.' :: digits.drop 1
      let power := before - 1
      let sign := if power < 0 then '-' else '+'
      digits.take 1 ++ fraction ++
        (if power = 0 then [] else 'E' :: sign :: decimalDigits power.natAbs)

/-- The full text. -/
def text : Decimal → String
  | .finite x => String.ofList (finiteText x)
  | .infinite negative => String.ofList (signed negative "Infinity".toList)
  | .nan negative signaling payload =>
    String.ofList (signed negative
      ((if signaling then "sNaN" else "NaN").toList ++ payloadText payload))

end Decimal

end MediaCommand
