import MediaCommand.Number.Decimal
import MediaCommand.Text.Blank
import MediaCommand.Text.Digit

/-!
# Numbers written as text

Three notations: whole numbers, reals and decimals. All take the digits of any script, a sign and
surrounding blanks; the first two take single underscores between digits. A whole number has no more
than `digitLimit` digits.
-/

namespace MediaCommand

/-- The blanks a number may stand between: those of ASCII that are no separators, and all others. -/
def isNumeralBlank (c : Char) : Bool := isBlank c && !(28 ≤ c.toNat && c.toNat ≤ 31)

/-- The text between the blanks, every digit in the Latin script. -/
def numeralBody (text : List Char) : List Char :=
  (trimBy isNumeralBlank text).map fun c =>
    match digitValue? c with
    | some value => Nat.digitChar value
    | none => c

/-- The value of a text of Latin digits. -/
def digitsValue (digits : List Char) : Nat :=
  digits.foldl (fun value c => 10 * value + (c.toNat - '0'.toNat)) 0

/-- The sign in front of a number, and what follows it. -/
def takeSign : List Char → Bool × List Char
  | '-' :: rest => (true, rest)
  | '+' :: rest => (false, rest)
  | rest => (false, rest)

/-- A text without its underscores, each of which stands between two digits. -/
def dropUnderscores? (before : Option Char) : List Char → Option (List Char)
  | [] => if before = some '_' then none else some []
  | c :: rest =>
    if c = '_' then
      if before.any isAsciiDigit then dropUnderscores? (some c) rest else none
    else if before = some '_' && !isAsciiDigit c then none
    else (dropUnderscores? (some c) rest).map (c :: ·)

/-- One digit or more and nothing else. -/
def natural? (text : List Char) : Option Nat :=
  if text ≠ [] ∧ text.all isAsciiDigit then some (digitsValue text) else none

/-- A whole number. -/
def integer? (text : List Char) : Option Int := do
  let body ← dropUnderscores? none (numeralBody text)
  let (negative, digits) := takeSign body
  let magnitude ← natural? digits
  if digitLimit < digits.length then none
  else return if negative then -(magnitude : Int) else magnitude

/-- A power of ten after its mark: a sign and digits. -/
def power? (text : List Char) : Option Int :=
  let (negative, digits) := takeSign text
  (natural? digits).map fun n => if negative then -(n : Int) else n

/-- Digits with an optional point and an optional power of ten. -/
def scaled? (negative : Bool) (text : List Char) : Option Scaled := do
  let whole := text.takeWhile isAsciiDigit
  let rest := text.dropWhile isAsciiDigit
  let (fraction, rest) := match rest with
    | '.' :: rest => (rest.takeWhile isAsciiDigit, rest.dropWhile isAsciiDigit)
    | rest => ([], rest)
  if whole.isEmpty && fraction.isEmpty then none
  else
    let power ← match rest with
      | [] => some 0
      | mark :: rest => if mark = 'e' ∨ mark = 'E' then power? rest else none
    return ⟨negative, digitsValue (whole ++ fraction), power - fraction.length⟩

private def small (text : List Char) : String :=
  String.ofList (text.map Char.toLower)

/-- A real number, rounded to the nearest double. -/
def real? (text : List Char) : Option Double := do
  let body ← dropUnderscores? none (numeralBody text)
  let (negative, magnitude) := takeSign body
  match small magnitude with
  | "inf" | "infinity" => return .infinite negative
  | "nan" => return .nan
  | _ => return .ofScaled (← scaled? negative magnitude)

/-- A decimal, exactly as written. Underscores do not count. -/
def decimal? (text : List Char) : Option Decimal := do
  let (negative, magnitude) := takeSign ((numeralBody text).filter (· ≠ '_'))
  let payload? (digits : List Char) : Option Nat :=
    if digits.all isAsciiDigit then some (digitsValue digits) else none
  match small (magnitude.takeWhile (!isAsciiDigit ·)) with
  | "inf" | "infinity" =>
    if magnitude.any isAsciiDigit then none else return .infinite negative
  | "nan" => return .nan negative false (← payload? (magnitude.drop 3))
  | "snan" => return .nan negative true (← payload? (magnitude.drop 4))
  | _ => return .finite (← scaled? negative magnitude)

end MediaCommand
