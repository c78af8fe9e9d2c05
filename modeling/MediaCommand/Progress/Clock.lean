import MediaCommand.Text.Lines
import MediaCommand.Value.Text

/-!
# Clocks

A clock is hours, minutes and seconds between colons. Reading gives a double; writing takes a
number of any kind and divides it in the arithmetic of its kind.
-/

namespace MediaCommand

/-- The double of an integer within the range. -/
def Double.ofInt? (n : Int) : Except Failure Double :=
  match Double.ofInt n with
  | .infinite _ => .error .integerTooLarge
  | x => .ok x

/-- The seconds on a clock of three parts. A text of any other number of parts is zero. -/
def clockSeconds (clock : String) : Except Failure Double :=
  match splitAt ':' clock.toList with
  | [hours, minutes, seconds] => do
    let hours ← readInteger hours
    let minutes ← readInteger minutes
    let seconds ← readReal seconds
    return (← Double.ofInt? (hours * 3600 + minutes * 60)).add seconds
  | _ => .ok (.zero false)

/-- Digits behind zeros up to `width`; a sign stands in front and counts. -/
def zeroPadded (width : Nat) (text : List Char) : List Char :=
  match text with
  | '-' :: digits => '-' :: (List.replicate (width - 1 - digits.length) '0' ++ digits)
  | digits => List.replicate (width - digits.length) '0' ++ digits

/-- The number of places of the seconds, and the least width of their text. -/
def secondsPlaces : Nat := 2

def secondsWidth : Nat := 5

/-- Hours, minutes and the text of the seconds as a clock. -/
def clockText (hours minutes : Int) (seconds : Scaled) : String :=
  let whole (n : Int) := zeroPadded 2 (signed (decide (n < 0)) (decimalDigits n.natAbs))
  String.ofList (whole hours ++ ':' :: whole minutes ++
    ':' :: zeroPadded secondsWidth (seconds.fixed secondsPlaces .toEven))

namespace Clock

def ofInt (n : Int) : Except Failure String :=
  if IsConvertible (n.fdiv 3600) then
    .ok (clockText (n.fdiv 3600) ((n.fmod 3600).fdiv 60) (.ofInt ((n.fmod 3600).fmod 60)))
  else .error .integerTooLong

/-- The integer part of a double quotient. -/
private def whole : Double → Except Failure Int
  | .finite x => .ok x.truncate
  | .infinite _ => .error .infinityToInteger
  | .nan => .error .nanToInteger

def ofDouble (x : Double) : Except Failure String := do
  let (hours, rest) := x.floorDivMod (.ofInt 3600)
  let (minutes, seconds) := rest.floorDivMod (.ofInt 60)
  let hours ← whole hours
  let minutes ← whole minutes
  match seconds with
  | .finite seconds => return clockText hours minutes seconds.toScaled
  | _ => throw .nanToInteger

/-- A decimal cut to the precision, half to even. -/
def cut (x : Scaled) : Scaled :=
  let excess := digitCount x.coefficient - Decimal.precision
  if excess = 0 then x
  else ⟨x.negative, roundDiv x.coefficient (10 ^ excess) .toEven, x.exponent + excess⟩

/-- Quotient toward zero and remainder of a decimal by an integer. A quotient beyond the precision
fails. -/
def decimalDivMod (x : Scaled) (divisor : Nat) : Except Failure (Int × Scaled) :=
  if (Decimal.precision : Int) + 8 < x.leadingPower then .error .quotientTooLarge
  else if x.leadingPower < -40 ∨ x.coefficient = 0 then .ok (0, cut x)
  else
    let unit := 10 ^ (-x.exponent).toNat
    let amount := x.coefficient * 10 ^ x.exponent.toNat
    let quotient := amount / (divisor * unit)
    if Decimal.precision < digitCount quotient then .error .quotientTooLarge
    else
      let rest : Scaled := ⟨x.negative, amount % (divisor * unit), min x.exponent 0⟩
      .ok (if x.negative then -(quotient : Int) else quotient, cut rest)

def ofDecimal : Decimal → Except Failure String
  | .finite x => do
    let (hours, rest) ← decimalDivMod x 3600
    let (minutes, seconds) ← decimalDivMod rest 60
    return clockText hours minutes seconds
  | .nan _ false _ => .error .decimalNanToInteger
  | _ => .error .decimalInvalid

/-- The clock of a number of seconds: at least two digits of hours, two of minutes, and seconds
with two places. -/
def ofValue : Value → Except Failure String
  | .int n => ofInt n
  | .bool b => ofInt b.toNat
  | .float x => ofDouble x
  | .decimal d => ofDecimal d
  | value => .error (.noOperator "divmod()" value.kind "int")

end Clock

end MediaCommand
