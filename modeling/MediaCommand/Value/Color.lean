import MediaCommand.Value.Normal

/-!
# Colours

A colour of three channels is written as six hexadecimal digits. Each channel counts modulo 256,
so that a negative or oversized number still has two digits.
-/

namespace MediaCommand

/-- A digit of a channel, in capitals. -/
def capitalDigit (n : Nat) : Char := (Nat.digitChar n).toUpper

/-- A channel as two hexadecimal digits. -/
def channelDigits (n : Int) : List Char :=
  let byte := (n % 256).toNat
  [capitalDigit (byte / 16), capitalDigit (byte % 16)]

namespace Value

/-- The number of a channel. -/
def channel : Value → Except Failure Int
  | .int n => .ok n
  | .bool b => .ok b.toNat
  | value => .error (.noOperator "&" value.kind "int")

/-- The digits of a channel value. -/
def channelText (value : Value) : Except Failure (List Char) :=
  return channelDigits (← value.channel)

/-- The text of three channels behind a mark such as `#`. -/
def hexColor (color : Value) (mark : String) : Except Failure String := do
  let channels ← match color.items with
    | .ok channels => pure channels
    | .error _ => throw (.notUnpackable color.kind)
  match channels with
  | [red, green, blue] =>
    return mark ++ String.ofList
      ((← red.channelText) ++ (← green.channelText) ++ (← blue.channelText))
  | [] | [_] | [_, _] => throw (.tooFewParts 3 channels.length)
  | _ => throw (.tooManyParts 3)

end Value

end MediaCommand
