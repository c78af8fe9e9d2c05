import MediaCommand.Number.Scaled

/-!
# Notations of numbers

The magnitude of a number in fixed, exponential and general notation, each rounded half to even from
the exact value. `keep` keeps the point and the zeros that a notation otherwise drops at the end.
-/

namespace MediaCommand

/-- Digits around a point. A point without digits behind it is dropped unless it is kept. -/
def pointed (keep : Bool) (whole fraction : List Char) : List Char :=
  if fraction.isEmpty && !keep then whole else whole ++ '.' :: fraction

/-- Digits behind a point without the zeros at their end, unless they are kept. -/
def withoutZeros (keep : Bool) (fraction : List Char) : List Char :=
  if keep then fraction else (fraction.reverse.dropWhile (· == '0')).reverse

/-- A power of ten behind a numeral, of at least two digits. -/
def powerMark (power : Int) : List Char :=
  'e' :: (if power < 0 then '-' else '+') :: paddedDigits 2 power.natAbs

namespace Scaled

/-- The first `count` digits of the magnitude and the power of ten of the first of them. -/
def leading (count : Nat) (x : Scaled) : Nat × Int :=
  let digits := digitCount x.coefficient
  if x.coefficient = 0 then (0, 0)
  else if digits ≤ count then (x.coefficient * 10 ^ (count - digits), x.leadingPower)
  else
    let units := roundDiv x.coefficient (10 ^ (digits - count)) .toEven
    if units = 10 ^ count then (10 ^ (count - 1), x.leadingPower + 1)
    else (units, x.leadingPower)

/-- Digits behind the point up to a number of places. -/
def fixedNotation (keep : Bool) (places : Nat) (x : Scaled) : List Char :=
  let units := x.units places .toEven
  pointed keep (decimalDigits (units / 10 ^ places))
    (if places = 0 then [] else paddedDigits places (units % 10 ^ places))

/-- One digit in front of the point, a number of places behind it, and a power of ten. -/
def exponential (keep : Bool) (places : Nat) (x : Scaled) : List Char :=
  let (units, power) := x.leading (places + 1)
  let digits := paddedDigits (places + 1) units
  pointed keep (digits.take 1) (digits.drop 1) ++ powerMark power

/-- A number of digits, with a power of ten only where it is small or beyond the digits. -/
def general (keep : Bool) (count : Nat) (x : Scaled) : List Char :=
  let count := max count 1
  let (units, power) := x.leading count
  if -4 ≤ power ∧ power < count then
    let places := (count - 1 - power).toNat
    pointed keep (decimalDigits (units / 10 ^ places))
      (withoutZeros keep (if places = 0 then [] else paddedDigits places (units % 10 ^ places)))
  else
    let digits := paddedDigits count units
    pointed keep (digits.take 1) (withoutZeros keep (digits.drop 1)) ++ powerMark power

end Scaled

end MediaCommand
