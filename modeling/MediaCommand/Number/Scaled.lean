import MediaCommand.Number.Rounding

/-!
# Exact decimal numbers

A `Scaled` is a sign, a coefficient and a power of ten. It is the common ground on which
integers, doubles and decimals are compared, and the source of every fixed-point text.
-/

namespace MediaCommand

/-- The number `±coefficient · 10 ^ exponent`. A zero keeps its sign and its exponent. -/
structure Scaled where
  negative : Bool
  coefficient : Nat
  exponent : Int
  deriving DecidableEq, Repr, Inhabited

/-- The decimal digits of a natural number, most significant first. -/
def decimalDigits (n : Nat) : List Char := Nat.toDigits 10 n

/-- How many decimal digits a natural number has; zero has one. -/
def digitCount (n : Nat) : Nat := (decimalDigits n).length

/-- The most digits of an integer that is written as a text or read from one. -/
def digitLimit : Nat := 4300

/-- Whether an integer has no more digits than can be written and read. -/
def IsConvertible (n : Int) : Prop := digitCount n.natAbs ≤ digitLimit

instance (n : Int) : Decidable (IsConvertible n) := inferInstanceAs (Decidable (_ ≤ _))

/-- The digits of `n`, with zeros in front up to `width`. -/
def paddedDigits (width n : Nat) : List Char :=
  let digits := decimalDigits n
  List.replicate (width - digits.length) '0' ++ digits

/-- The text of `n / 10 ^ places` with exactly `places` fractional digits. -/
def fixedPoint (places n : Nat) : List Char :=
  if places = 0 then decimalDigits n
  else decimalDigits (n / 10 ^ places) ++ '.' :: paddedDigits places (n % 10 ^ places)

/-- A sign in front of `digits` when the number is negative. -/
def signed (negative : Bool) (digits : List Char) : List Char :=
  if negative then '-' :: digits else digits

namespace Scaled

def ofInt (n : Int) : Scaled := ⟨decide (n < 0), n.natAbs, 0⟩

/-- The exact rational value. -/
def toRat (x : Scaled) : Rat :=
  let magnitude := mkRat (x.coefficient * 10 ^ x.exponent.toNat) (10 ^ (-x.exponent).toNat)
  if x.negative then -magnitude else magnitude

/-- The power of ten of the first digit. -/
def leadingPower (x : Scaled) : Int := digitCount x.coefficient - 1 + x.exponent

/-- The magnitude in units of `10 ^ -places`, rounded to the nearest unit.

A number below a tenth of a unit is settled without computing its power of ten. -/
def units (places : Nat) (tie : Tie) (x : Scaled) : Nat :=
  match x.exponent + places with
  | .ofNat up => x.coefficient * 10 ^ up
  | .negSucc down =>
    if digitCount x.coefficient ≤ down then 0
    else roundDiv x.coefficient (10 ^ (down + 1)) tie

/-- Fixed-point text with `places` fractional digits; a zero keeps its sign. -/
def fixed (places : Nat) (tie : Tie) (x : Scaled) : List Char :=
  signed x.negative (fixedPoint places (x.units places tie))

/-- The magnitudes as integers at the smaller of the two exponents. -/
private def aligned (x y : Scaled) : Nat × Nat :=
  (x.coefficient * 10 ^ (x.exponent - y.exponent).toNat,
    y.coefficient * 10 ^ (y.exponent - x.exponent).toNat)

/-- The order of the magnitudes. Different leading powers settle it without aligning. -/
def compareMagnitude (x y : Scaled) : Ordering :=
  if x.coefficient = 0 ∨ y.coefficient = 0 then compare x.coefficient y.coefficient
  else if x.leadingPower ≠ y.leadingPower then compare x.leadingPower y.leadingPower
  else
    let (a, b) := aligned x y
    compare a b

/-- The numeric order; the two zeros are equal. -/
def compare (x y : Scaled) : Ordering :=
  if x.coefficient = 0 ∧ y.coefficient = 0 then .eq
  else match x.negative, y.negative with
    | false, false => compareMagnitude x y
    | true, true => compareMagnitude y x
    | true, false => .lt
    | false, true => .gt

end Scaled

end MediaCommand
