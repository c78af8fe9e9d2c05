import MediaCommand.Text.Numeral
import MediaCommand.Value

/-!
# Time limits of settings

A time limit is a whole number of seconds, or none. Whole numbers are read from texts, doubles and
decimals, and a constant counts as what it stands for, whatever that is.
-/

namespace MediaCommand.TimeLimit

/-- A numeral without the zeros in front of it, the last of which is `zero`. An underscore passes
as a zero. A minus may follow, and one zero stays where nothing or a point follows. -/
def afterZeros? (zero : Char) : List Char → Option (List Char)
  | [] => some [zero]
  | c :: rest =>
    if c = '0' ∨ c = '_' then afterZeros? c rest
    else if c = '.' then some (zero :: c :: rest)
    else if isAsciiDigit c ∨ c = '-' then some (c :: rest)
    else none

/-- A numeral from its first digit that counts, or from its minus. Zeros behind a minus stay. -/
def significant? : List Char → Option (List Char)
  | [] => none
  | c :: rest =>
    if c = '0' then afterZeros? c rest
    else if isAsciiDigit c ∨ c = '-' then some (c :: rest)
    else none

/-- A numeral without its fraction, which is a point and one zero or more. -/
def whole? (numeral : List Char) : Option (List Char) :=
  match numeral.dropWhile (· ≠ '.') with
  | [] => some numeral
  | _ :: zeros =>
    if zeros ≠ [] ∧ zeros.all (· == '0') then some (numeral.takeWhile (· ≠ '.')) else none

/-- A numeral without its underscores, which are single and neither first nor last. -/
def joined? (numeral : List Char) : Option (List Char) :=
  if numeral.head? = some '_' ∨ numeral.getLast? = some '_' ∨
      ('_', '_') ∈ numeral.zip (numeral.drop 1) then none
  else some (numeral.filter (· ≠ '_'))

/-- The number of a minus and digits. The first of several digits is no zero. -/
def plain? (numeral : List Char) : Option Int :=
  let negative := numeral.head? = some '-'
  let digits := if negative then numeral.drop 1 else numeral
  if digits.head? = some '0' ∧ digits ≠ ['0'] then none
  else (natural? digits).map fun magnitude => if negative then -(magnitude : Int) else magnitude

/-- The whole number in a text. Around it blanks are let pass, and in front of it a plus. -/
def ofText? (text : List Char) : Option Int := do
  let signed := trimBy isNumeralBlank text
  let unsigned := if signed.head? = some '+' then signed.drop 1 else signed
  plain? (← joined? (← whole? (← significant? unsigned)))

/-- The whole number that a double is, or what is wrong with it. Its magnitude has fewer than 64
bits. -/
def ofDouble : Double → Except String Int
  | .finite x =>
    if x.toRat ≠ x.truncate then .error "int_from_float"
    else if x.truncate.natAbs < 2 ^ 63 then .ok x.truncate
    else .error "int_parsing_size"
  | _ => .error "finite_number"

/-- The whole number that a decimal is, or what is wrong with it. What has fewer digits than
fractional places is settled without a power of ten. -/
def ofDecimal : Decimal → Except String Int
  | .finite x =>
    let signed (magnitude : Nat) : Int := if x.negative then -magnitude else magnitude
    let places := (-x.exponent).toNat
    if x.coefficient = 0 then .ok 0
    else if places = 0 then .ok (signed (x.coefficient * 10 ^ x.exponent.toNat))
    else if digitCount x.coefficient ≤ places ∨ x.coefficient % 10 ^ places ≠ 0 then
      .error "int_from_float"
    else .ok (signed (x.coefficient / 10 ^ places))
  | _ => .error "finite_number"

/-- A time limit, or what is wrong with it. -/
def read : Value → Except String Value
  | .null => .ok .null
  | .int n => .ok (.int n)
  | .bool b => .ok (.int b.toNat)
  | .float x => .int <$> ofDouble x
  | .decimal d => .int <$> ofDecimal d
  | .text s => match ofText? s.toList with
    | some n => .ok (.int n)
    | none => .error "int_parsing"
  | .member _ worth => .ok worth
  | _ => .error "int_type"

end MediaCommand.TimeLimit
