import MediaCommand.Failure
import MediaCommand.Text.Numeral

/-!
# Values and numbers as texts

An integer of more than `digitLimit` digits is neither written as a text nor read from one. Writing
a value fails when its text would show such an integer, reading a numeral when it has that many
digits.
-/

namespace MediaCommand

/-- The text of a value on its own. -/
def Value.spelled (value : Value) : Except Failure String :=
  if value.spellingFits then .ok value.spelling else .error .integerTooLong

/-- How many digits a text begins with, when these are too many for an integer. Underscores between
them do not count. -/
def overlong? (text : List Char) : Option Nat := do
  let numeral := (takeSign (numeralBody text)).2
  let digits ← dropUnderscores? none (numeral.takeWhile fun c => isAsciiDigit c || c == '_')
  if digitLimit < digits.length then some digits.length else none

/-- Reads a whole number. Too many digits in front are noticed before what follows them. -/
def readInteger (text : List Char) : Except Failure Int :=
  match integer? text, overlong? text with
  | some n, _ => .ok n
  | none, some digits => .error (.numeralTooLong digits)
  | none, none => .error (.notInteger (String.ofList text))

/-- Reads a real number. -/
def readReal (text : List Char) : Except Failure Double :=
  match real? text with
  | some x => .ok x
  | none => .error (.notReal (String.ofList text))

end MediaCommand
