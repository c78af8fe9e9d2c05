import MediaCommand.Number.Scaled

/-!
# Binary floating-point numbers of 64 bits

A finite `Double` is an exact rational, and every operation is the exact one followed by
`nearest`, which rounds to the closest double and sends a tie to the even significand.
-/

namespace MediaCommand

/-- The finite double `±significand · 2 ^ exponent`, in its one canonical form: either the
significand has all 53 bits or the exponent is the smallest. -/
structure FiniteDouble where
  negative : Bool
  significand : Nat
  exponent : Int
  significand_lt : significand < 2 ^ 53
  le_exponent : -1074 ≤ exponent
  exponent_le : exponent ≤ 971
  canonical : 2 ^ 52 ≤ significand ∨ exponent = -1074
  deriving DecidableEq

/-- A double. The zeros, like the infinities, carry a sign. -/
inductive Double where
  | finite (x : FiniteDouble)
  | infinite (negative : Bool)
  | nan
  deriving DecidableEq

namespace FiniteDouble

def zero (negative : Bool) : FiniteDouble :=
  ⟨negative, 0, -1074, by decide, by decide, by decide, .inr rfl⟩

instance : Inhabited FiniteDouble := ⟨zero false⟩

/-- The exact rational value. -/
def toRat (x : FiniteDouble) : Rat :=
  let magnitude := mkRat (x.significand * 2 ^ x.exponent.toNat) (2 ^ (-x.exponent).toNat)
  if x.negative then -magnitude else magnitude

/-- The exact decimal expansion: a half is five tenths. -/
def toScaled (x : FiniteDouble) : Scaled :=
  if 0 ≤ x.exponent then ⟨x.negative, x.significand * 2 ^ x.exponent.toNat, 0⟩
  else ⟨x.negative, x.significand * 5 ^ (-x.exponent).toNat, x.exponent⟩

def isZero (x : FiniteDouble) : Bool := x.significand == 0

/-- The greatest integer at or below. -/
def floor (x : FiniteDouble) : Int := x.toRat.floor

/-- The integer part, toward zero. -/
def truncate (x : FiniteDouble) : Int :=
  let magnitude := x.significand * 2 ^ x.exponent.toNat / 2 ^ (-x.exponent).toNat
  if x.negative then -magnitude else magnitude

end FiniteDouble

namespace Double

instance : Inhabited Double := ⟨.finite default⟩

def zero (negative : Bool) : Double := .finite (.zero negative)

/-- The double with these parts; parts beyond the range are an infinity. -/
def ofParts (negative : Bool) (significand : Nat) (exponent : Int) : Double :=
  if h : significand < 2 ^ 53 ∧ -1074 ≤ exponent ∧ exponent ≤ 971 ∧
      (2 ^ 52 ≤ significand ∨ exponent = -1074) then
    .finite ⟨negative, significand, exponent, h.1, h.2.1, h.2.2.1, h.2.2.2⟩
  else .infinite negative

/-- The greatest power of two at or below the positive rational `num / den`. -/
def binaryPower (num den : Nat) : Int :=
  let estimate : Int := (num.log2 : Int) - den.log2
  if den * 2 ^ estimate.toNat ≤ num * 2 ^ (-estimate).toNat then estimate else estimate - 1

/-- The double nearest to `±num / den`. -/
def nearest (negative : Bool) (num den : Nat) : Double :=
  if num = 0 then zero negative
  else
    let exponent := max (-1074) (binaryPower num den - 52)
    let significand :=
      roundDiv (num * 2 ^ (-exponent).toNat) (den * 2 ^ exponent.toNat) .toEven
    if significand = 2 ^ 53 then ofParts negative (2 ^ 52) (exponent + 1)
    else ofParts negative significand exponent

/-- The double nearest to a rational; `negativeZero` is the sign of an exact zero. -/
def ofRat (negativeZero : Bool) (q : Rat) : Double :=
  if q = 0 then zero negativeZero else nearest (decide (q < 0)) q.num.natAbs q.den

/-- The double nearest to a decimal number. Leading powers beyond the range are settled
without computing the power. -/
def ofScaled (x : Scaled) : Double :=
  if x.coefficient = 0 then zero x.negative
  else if 310 < x.leadingPower then .infinite x.negative
  else if x.leadingPower < -330 then zero x.negative
  else nearest x.negative (x.coefficient * 10 ^ x.exponent.toNat) (10 ^ (-x.exponent).toNat)

def ofInt (n : Int) : Double := nearest (decide (n < 0)) n.natAbs 1

def isZero : Double → Bool
  | .finite x => x.isZero
  | _ => false

def isNegative : Double → Bool
  | .finite x => x.negative
  | .infinite negative => negative
  | .nan => false

def neg : Double → Double
  | .finite x => .finite { x with negative := !x.negative }
  | .infinite negative => .infinite (!negative)
  | .nan => .nan

def add : Double → Double → Double
  | .nan, _ | _, .nan => .nan
  | .infinite a, .infinite b => if a = b then .infinite a else .nan
  | .infinite a, .finite _ | .finite _, .infinite a => .infinite a
  | .finite x, .finite y => ofRat (x.negative && y.negative) (x.toRat + y.toRat)

def sub (x y : Double) : Double := x.add y.neg

def mul : Double → Double → Double
  | .nan, _ | _, .nan => .nan
  | .infinite a, .infinite b => .infinite (a != b)
  | .infinite a, .finite x | .finite x, .infinite a =>
    if x.isZero then .nan else .infinite (a != x.negative)
  | .finite x, .finite y => ofRat (x.negative != y.negative) (x.toRat * y.toRat)

def div : Double → Double → Double
  | .nan, _ | _, .nan => .nan
  | .infinite _, .infinite _ => .nan
  | .infinite a, .finite y => .infinite (a != y.negative)
  | .finite x, .infinite b => zero (x.negative != b)
  | .finite x, .finite y =>
    if y.isZero then if x.isZero then .nan else .infinite (x.negative != y.negative)
    else ofRat (x.negative != y.negative) (x.toRat / y.toRat)

/-- The numeric order; nothing is ordered with a NaN. -/
def compare? : Double → Double → Option Ordering
  | .nan, _ | _, .nan => none
  | .infinite a, .infinite b => some (if a = b then .eq else if a then .lt else .gt)
  | .infinite a, .finite _ => some (if a then .lt else .gt)
  | .finite _, .infinite b => some (if b then .gt else .lt)
  | .finite x, .finite y => some (x.toScaled.compare y.toScaled)

def isPositive (x : Double) : Bool := x.compare? (zero false) == some .gt

/-- The floor as a double; an infinity or a NaN is its own. A zero keeps its sign. -/
def floor : Double → Double
  | .finite x => ofRat x.negative x.floor
  | x => x

/-- What `x` leaves over a whole multiple of `w`, with the sign of `x`. It is exact. -/
def remainder : Double → Double → Double
  | .finite x, .finite w =>
    if w.isZero then .nan
    else
      let quotient := (x.toRat / w.toRat)
      let whole : Int := if quotient < 0 then -((-quotient).floor) else quotient.floor
      ofRat x.negative (x.toRat - whole * w.toRat)
  | .finite x, .infinite _ => .finite x
  | _, _ => .nan

/-- Quotient to the floor, and the remainder with the sign of a positive divisor `w`.

The quotient is formed from the rounded difference and repaired when rounding put it more than
a half above its floor. -/
def floorDivMod (x w : Double) : Double × Double :=
  let rest := x.remainder w
  let whole := (x.sub rest).div w
  let (whole, rest) :=
    if rest.isZero then (whole, zero w.isNegative)
    else if rest ≠ .nan ∧ rest.isNegative ≠ w.isNegative then
      (whole.sub (ofInt 1), rest.add w)
    else (whole, rest)
  if whole.isZero then (zero (x.div w).isNegative, rest)
  else
    let below := whole.floor
    if (whole.sub below).compare? (nearest false 1 2) = some .gt then (below.add (ofInt 1), rest)
    else (below, rest)

end Double

end MediaCommand
