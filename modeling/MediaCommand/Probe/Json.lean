import MediaCommand.Value
import MediaCommand.Text.Numeral

/-!
# Reading JSON

A document is read into a `Value`. Beside the standard grammar the words `NaN`, `Infinity` and
`-Infinity` are numbers, and the last entry for a key counts, at the place of the first. A text
that is no document is refused with the place where reading stopped. Two limits are none of the
grammar's: integers have no more than `digitLimit` digits, and no more than `depth` containers are
open at a time. How many that are is up to the caller.
-/

namespace MediaCommand

/-- What was wrong at the place where reading stopped. -/
inductive JsonFault where
  | byteOrderMark
  | expectingValue
  | expectingName
  | expectingColon
  | expectingComma
  | extraData
  | controlCharacter
  | unterminatedString
  | badEscape
  | badCodeEscape
  deriving DecidableEq, Repr

def JsonFault.message : JsonFault → String
  | .byteOrderMark => "Unexpected UTF-8 BOM (decode using utf-8-sig)"
  | .expectingValue => "Expecting value"
  | .expectingName => "Expecting property name enclosed in double quotes"
  | .expectingColon => "Expecting ':' delimiter"
  | .expectingComma => "Expecting ',' delimiter"
  | .extraData => "Extra data"
  | .controlCharacter => "Invalid control character at"
  | .unterminatedString => "Unterminated string starting at"
  | .badEscape => "Invalid \\escape"
  | .badCodeEscape => "Invalid \\uXXXX escape"

/-- Why reading stopped. -/
inductive JsonError where
  /-- A fault, and how many characters were left at its place. -/
  | refused (fault : JsonFault) (left : Nat)
  /-- An integer of too many digits. -/
  | numeralTooLong (digits : Nat)
  /-- One container too many was opened, of this kind. -/
  | nestedTooDeep (container : String)
  deriving DecidableEq, Repr

namespace Json

abbrev Reader (α : Type) := List Char → Except JsonError (α × List Char)

/-- A refusal at the start of `rest`. -/
def refuse {α : Type} (fault : JsonFault) (rest : List Char) : Except JsonError α :=
  .error (.refused fault rest.length)

def isSpace (c : Char) : Bool := c == ' ' || c == '\t' || c == '\n' || c == '\r'

def skipSpace (text : List Char) : List Char := text.dropWhile isSpace

/-- The value of a hexadecimal digit. -/
def hexValue? (c : Char) : Option Nat :=
  if '0' ≤ c ∧ c ≤ '9' then some (c.toNat - '0'.toNat)
  else if 'a' ≤ c ∧ c ≤ 'f' then some (c.toNat - 'a'.toNat + 10)
  else if 'A' ≤ c ∧ c ≤ 'F' then some (c.toNat - 'A'.toNat + 10)
  else none

/-- Four hexadecimal digits, with a character after them. -/
def code? : List Char → Option (Nat × List Char)
  | a :: b :: c :: d :: next :: rest => do
    return (((← hexValue? a) * 16 + (← hexValue? b)) * 256
      + ((← hexValue? c) * 16 + (← hexValue? d)), next :: rest)
  | _ => none

/-- A code and, when it is the first half of a pair, the second half. `text` starts at the `u`. -/
def codeEscape (text : List Char) : Except JsonError (Char × List Char) :=
  match code? (text.drop 1) with
  | none => refuse .badCodeEscape text
  | some (code, rest) =>
    if 0xD800 ≤ code ∧ code < 0xDC00 then
      match rest with
      | '\\' :: 'u' :: more =>
        if more.length < 5 then .ok (Char.ofNat code, rest)
        else match code? more with
          | none => refuse .badCodeEscape ('u' :: more)
          | some (low, after) =>
            if 0xDC00 ≤ low ∧ low < 0xE000 then
              .ok (Char.ofNat (0x10000 + (code - 0xD800) * 0x400 + (low - 0xDC00)), after)
            else .ok (Char.ofNat code, rest)
      | rest => .ok (Char.ofNat code, rest)
    else .ok (Char.ofNat code, rest)

/-- The character of a one-letter escape. -/
def letterEscape? : Char → Option Char
  | '"' => some '"'
  | '\\' => some '\\'
  | '/' => some '/'
  | 'b' => some '\x08'
  | 'f' => some '\x0c'
  | 'n' => some '\n'
  | 'r' => some '\r'
  | 't' => some '\t'
  | _ => none

/-- The rest of a string, up to its closing quote. `opening` is the place of the opening one. -/
def string (fuel opening : Nat) (done : List Char) : Reader String := fun text =>
  match fuel with
  | 0 => .error (.refused .unterminatedString opening)
  | fuel + 1 =>
    match text with
    | [] => .error (.refused .unterminatedString opening)
    | '"' :: rest => .ok (String.ofList done.reverse, rest)
    | '\\' :: rest =>
      match rest with
      | [] => .error (.refused .unterminatedString opening)
      | 'u' :: _ => do
        let (c, rest) ← codeEscape rest
        string fuel opening (c :: done) rest
      | letter :: rest =>
        match letterEscape? letter with
        | some c => string fuel opening (c :: done) rest
        | none => refuse .badEscape text
    | c :: rest =>
      if c.toNat < 32 then refuse .controlCharacter text
      else string fuel opening (c :: done) rest

/-- Splits digits off the front. -/
def digits (text : List Char) : List Char × List Char :=
  (text.takeWhile isAsciiDigit, text.dropWhile isAsciiDigit)

/-- The fraction at the front of a text: a point with a digit after it. -/
def fraction (text : List Char) : List Char × List Char :=
  match text with
  | '.' :: rest => match digits rest with
    | ([], _) => ([], text)
    | (fraction, rest) => ('.' :: fraction, rest)
  | _ => ([], text)

/-- The power of ten at the front of a text: a mark, perhaps a sign, and a digit after it. -/
def exponent (text : List Char) : List Char × List Char :=
  match text with
  | mark :: rest =>
    if mark = 'e' ∨ mark = 'E' then
      let (sign, rest) := match rest with
        | '-' :: rest => (['-'], rest)
        | '+' :: rest => (['+'], rest)
        | rest => ([], rest)
      match digits rest with
      | ([], _) => ([], text)
      | (power, rest) => (mark :: (sign ++ power), rest)
    else ([], text)
  | [] => ([], text)

/-- A number: an integer, or a double when it has a fraction or a power of ten. -/
def number : Reader Value := fun text =>
  let (negative, body) := match text with
    | '-' :: rest => (true, rest)
    | rest => (false, rest)
  let (whole, rest) := match body with
    | '0' :: rest => (['0'], rest)
    | body => digits body
  if whole.isEmpty then refuse .expectingValue text
  else
    let (fraction, rest) := fraction rest
    let (power, rest) := exponent rest
    if fraction.isEmpty && power.isEmpty then
      if digitLimit < whole.length then .error (.numeralTooLong whole.length)
      else
        let magnitude : Int := digitsValue whole
        .ok (.int (if negative then -magnitude else magnitude), rest)
    else match scaled? negative (whole ++ fraction ++ power) with
      | some x => .ok (.float (.ofScaled x), rest)
      | none => refuse .expectingValue text

/-- The words that stand for values. -/
def words : List (String × Value) := [
  ("null", .null), ("true", .bool true), ("false", .bool false), ("NaN", .float .nan),
  ("Infinity", .float (.infinite false)), ("-Infinity", .float (.infinite true))]

/-- A word at the start of the text. -/
def word? (text : List Char) : Option (Value × List Char) :=
  words.findSome? fun word =>
    if word.1.toList.isPrefixOf text then some (word.2, text.drop word.1.length) else none

mutual

/-- A value at the start of the text. -/
def value (depth fuel : Nat) : Reader Value := fun text =>
  match fuel with
  | 0 => refuse .expectingValue text
  | fuel + 1 =>
    match text with
    | '"' :: rest => do
      let (s, rest) ← string rest.length.succ text.length [] rest
      return (.text s, rest)
    | '\x7b' :: rest =>
      match depth with
      | 0 => .error (.nestedTooDeep "object")
      | depth + 1 =>
        match skipSpace rest with
        | '\x7d' :: rest => .ok (.mapping [], rest)
        | rest => members depth fuel [] rest
    | '[' :: rest =>
      match depth with
      | 0 => .error (.nestedTooDeep "array")
      | depth + 1 =>
        match skipSpace rest with
        | ']' :: rest => .ok (.list [], rest)
        | rest => elements depth fuel [] rest
    | text =>
      match word? text with
      | some found => .ok found
      | none => number text

/-- The members of an object from a name on. -/
def members (depth fuel : Nat) (done : Keyed String Value) : Reader Value := fun text =>
  match fuel with
  | 0 => refuse .expectingValue text
  | fuel + 1 =>
    match text with
    | '"' :: rest => do
      let (name, rest) ← string rest.length.succ text.length [] rest
      match skipSpace rest with
      | ':' :: rest =>
        let (item, rest) ← value depth fuel (skipSpace rest)
        let done := done.put name item
        match skipSpace rest with
        | '\x7d' :: rest => return (.mapping (done.map fun entry => (.text entry.1, entry.2)), rest)
        | ',' :: rest => members depth fuel done (skipSpace rest)
        | rest => refuse .expectingComma rest
      | rest => refuse .expectingColon rest
    | text => refuse .expectingName text

/-- The elements of an array from a value on. -/
def elements (depth fuel : Nat) (done : List Value) : Reader Value := fun text =>
  match fuel with
  | 0 => refuse .expectingValue text
  | fuel + 1 => do
    let (item, rest) ← value depth fuel text
    match skipSpace rest with
    | ']' :: rest => return (.list (item :: done).reverse, rest)
    | ',' :: rest => elements depth fuel (item :: done) (skipSpace rest)
    | rest => refuse .expectingComma rest

end

/-- The fuel for a text. Each character takes two steps at most, one into a container and one into
the value there. -/
def fuelFor (text : List Char) : Nat := 2 * text.length + 1

/-- Reads a document with at most `depth` containers open at a time. -/
def document (depth : Nat) (text : List Char) : Except JsonError Value :=
  if text.head? = some '\ufeff' then refuse .byteOrderMark text
  else
    let start := skipSpace text
    match value depth (fuelFor start) start with
    | .error error => .error error
    | .ok (result, rest) =>
      match skipSpace rest with
      | [] => .ok result
      | rest => refuse .extraData rest

/-- A fault with its place: line and column from one, and the offset from zero. -/
def faultText (text : List Char) (fault : JsonFault) (left : Nat) : String :=
  let before := text.take (text.length - left)
  let line := before.count '\n' + 1
  let column := (before.reverse.takeWhile (· ≠ '\n')).length + 1
  fault.message ++ ": line " ++ toString line ++ " column " ++ toString column
    ++ " (char " ++ toString before.length ++ ")"

end Json

end MediaCommand
