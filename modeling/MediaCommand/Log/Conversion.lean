import MediaCommand.Failure
import MediaCommand.Number.Notation

/-!
# Conversions

A conversion turns one value into a text: `%s`, `%r` and `%a` into what it reads as, `%c` into a
character, `%d`, `%o` and `%x` into an integer, and `%e`, `%f` and `%g` into a real number. Integers
of any length are converted. A `Layout` says how the text is laid out.
-/

namespace MediaCommand

/-- Flags, the least width, and a precision if there is one. -/
structure Layout where
  flags : List Char
  width : Nat
  precision : Option Nat

namespace Layout

variable (layout : Layout)

def has (flag : Char) : Bool := layout.flags.contains flag

/-- A text filled up with blanks. -/
def padded (text : List Char) : List Char :=
  let fill := List.replicate (layout.width - text.length) ' '
  if layout.has '-' then text ++ fill else fill ++ text

/-- A text cut to the precision. -/
def text (text : String) : List Char :=
  layout.padded (match layout.precision with
    | some limit => text.toList.take limit
    | none => text.toList)

/-- The sign of a number; one that is not negative shows what the flags ask for. -/
def sign (negative : Bool) : List Char :=
  if negative then ['-'] else if layout.has '+' then ['+']
  else if layout.has ' ' then [' '] else []

/-- A number behind its sign and its mark, filled up with zeros or blanks. -/
def number (negative : Bool) (mark digits : List Char) : List Char :=
  let front := layout.sign negative ++ mark
  if layout.has '0' && !layout.has '-' then
    front ++ List.replicate (layout.width - front.length - digits.length) '0' ++ digits
  else layout.padded (front ++ digits)

/-- An integer in a base, with at least as many digits as the precision. -/
def integer (base : Nat) (mark : List Char) (n : Int) : List Char :=
  let digits := Nat.toDigits base n.natAbs
  layout.number (decide (n < 0)) (if layout.has '#' then mark else [])
    (List.replicate (layout.precision.getD 0 - digits.length) '0' ++ digits)

/-- A real number with six places or digits, unless the precision says how many. -/
def real (conversion : Char) : Double → List Char
  | .nan => layout.number false [] "nan".toList
  | .infinite negative => layout.number negative [] "inf".toList
  | .finite x =>
    let keep := layout.has '#'
    let places := layout.precision.getD 6
    layout.number x.negative [] <|
      if conversion = 'e' ∨ conversion = 'E' then x.toScaled.exponential keep places
      else if conversion = 'f' ∨ conversion = 'F' then x.toScaled.fixedNotation keep places
      else x.toScaled.general keep places

end Layout

namespace Conversion

/-- The integer that a number is cut to. -/
def wholeNumber (conversion : Char) : Value → Except Failure Int
  | .int n => .ok n
  | .bool b => .ok b.toNat
  | .float (.finite x) => .ok x.truncate
  | .float (.infinite _) => .error .infinityToInteger
  | .float .nan => .error .nanToInteger
  | .decimal (.finite x) =>
    let magnitude := x.coefficient * 10 ^ x.exponent.toNat / 10 ^ (-x.exponent).toNat
    .ok (if x.negative then -(magnitude : Int) else magnitude)
  | .decimal (.nan ..) => .error .decimalNanToInteger
  | .decimal (.infinite _) => .error .decimalInfinityToInteger
  | value => .error (.formatNumber conversion value.kind)

/-- An integer; no other number is taken for one. -/
def exactInteger (conversion : Char) : Value → Except Failure Int
  | .int n => .ok n
  | .bool b => .ok b.toNat
  | value => .error (.formatInteger conversion value.kind)

/-- The double nearest to a number. An integer beyond the doubles fails. -/
def realNumber : Value → Except Failure Double
  | .float x => .ok x
  | .int n => match Double.ofInt n with
    | .infinite _ => .error .integerTooLarge
    | x => .ok x
  | .bool b => .ok (.ofInt b.toNat)
  | .decimal (.finite x) => .ok (.ofScaled x)
  | .decimal (.infinite negative) => .ok (.infinite negative)
  | .decimal (.nan _ signaling _) => if signaling then .error .signalingNan else .ok .nan
  | value => .error (.notNumber value.kind)

/-- The character of a code point, or that of a text of one. -/
def character : Value → Except Failure Char
  | .text s => match s.toList with
    | [c] => .ok c
    | _ => .error .formatCharacter
  | .int n => ofCode n
  | .bool b => ofCode b.toNat
  | _ => .error .formatCharacter
where
  ofCode (n : Int) : Except Failure Char :=
    if 0 ≤ n ∧ n.toNat.isValidChar then .ok (Char.ofNat n.toNat) else .error .formatCodePoint

/-- Characters outside the Latin ones as escapes. -/
def latin (text : String) : String :=
  String.ofList (text.toList.flatMap fun c => if c.toNat < 128 then [c] else codeEscape c)

/-- Letters are capital under a capital conversion. -/
def cased (conversion : Char) (text : List Char) : List Char :=
  if conversion.isUpper then text.map Char.toUpper else text

/-- One value under a conversion. `place` is the offset of the conversion in the template. -/
def convert (layout : Layout) (conversion : Char) (place : Nat) (value : Value) :
    Except Failure (List Char) :=
  match conversion with
  | 's' => .ok (layout.text value.spelling)
  | 'r' => .ok (layout.text value.literal)
  | 'a' => .ok (layout.text (latin value.literal))
  | 'c' => return layout.padded [← character value]
  | 'd' | 'i' | 'u' => return layout.integer 10 [] (← wholeNumber conversion value)
  | 'o' => return layout.integer 8 "0o".toList (← exactInteger conversion value)
  | 'x' | 'X' =>
    return cased conversion (layout.integer 16 "0x".toList (← exactInteger conversion value))
  | 'e' | 'E' | 'f' | 'F' | 'g' | 'G' =>
    return cased conversion (layout.real conversion (← realNumber value))
  | _ => .error (.formatUnknown conversion place)

end Conversion

end MediaCommand
