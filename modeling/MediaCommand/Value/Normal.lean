import MediaCommand.Tokens
import MediaCommand.Text.Escape
import MediaCommand.Value.Text

/-!
# The command-line text of a value

`normalize` is the text under which a value enters a command or a filter. Doubles next above an
integer are written as that integer, other doubles with three fractional digits at most, decimals
with two, members as their tokens, unless they are texts or numbers besides. A text is its own;
`null` has none.
-/

namespace MediaCommand

namespace FiniteDouble

/-- How far above an integer a double still counts as that integer: the double nearest to
`1e-10`. -/
def snapDistance : Rat := mkRat 7737125245533627 (2 ^ 86)

/-- Whether the double lies less than `snapDistance` above its floor. -/
def isWhole (x : FiniteDouble) : Bool := decide (x.toRat - x.floor < snapDistance)

/-- The number of fractional digits of the full-precision text; an integer has none. -/
def fractionDigits (x : FiniteDouble) : Nat :=
  if x.toRat = x.truncate then 0 else (-x.shortest.exponent).toNat

/-- The number of fractional digits that a double is written with at most. -/
def fractionLimit : Nat := 3

def normal (x : FiniteDouble) : List Char :=
  if x.isWhole then (toString x.floor).toList
  else if fractionLimit < x.fractionDigits then x.toScaled.fixed fractionLimit .toEven
  else x.text

end FiniteDouble

/-- The command-line text of a double. -/
def Double.normal : Double → String
  | .finite x => String.ofList x.normal
  | x => x.text

/-- What the members of a catalogue are besides, as far as it is told before that they are
members. -/
inductive MemberBase where
  | plain
  | text
  | double
  | decimal
  deriving DecidableEq, Repr

/-- How a member is written that is told for a text or a number first. A double is read from its
literal, which for a member is none of a number. -/
def MemberBase.written? (base : MemberBase) (m : Member) (worth : Value) :
    Option (Except Failure String) :=
  match base, worth with
  | .text, .text s => some (.ok s)
  | .double, .float (.finite x) =>
    some (if x.isWhole then .ok (toString x.floor) else .error .decimalSyntax)
  | .double, .float _ => some (.ok (Value.member m worth).literal)
  | .decimal, .decimal d => some (match d.cents? with
    | some digits => .ok (String.ofList digits)
    | none => .error .decimalInvalid)
  | _, _ => none

/-- The command-line text of a member of any catalogue. -/
def normalizeMember (base : MemberBase) (m : Member) (worth : Value) :
    Action Tokens (Option String) :=
  match base.written? m worth with
  | some written => return some (← Action.ofExcept written)
  | none => some <$> Tokens.resolve m.catalog m.name

/-- The command-line text of a value. The members among them are of plain catalogues. -/
def normalize : Value → Action Tokens (Option String)
  | .null => return none
  | .text s => return some s
  | .bool b => return some (if b then "true" else "false")
  | .float x => return some x.normal
  | .decimal d => match d.cents? with
    | some digits => return some (String.ofList digits)
    | none => throw .decimalInvalid
  | .member m worth => normalizeMember .plain m worth
  | value => return some (← Action.ofExcept value.spelled)

/-- A member of a plain catalogue is written as its token. -/
theorem normalize_member (m : Member) (worth : Value) :
    normalize (.member m worth) = some <$> Tokens.resolve m.catalog m.name := rfl

/-- The text of every value in turn. -/
def normalizeAll : List Value → Action Tokens (List (Option String))
  | [] => return []
  | value :: rest => do
    let text ← normalize value
    let texts ← normalizeAll rest
    return text :: texts

/-- The texts of the values that have one, joined. -/
def expandAll (separator : String) (values : List Value) : Action Tokens String := do
  return separator.intercalate ((← normalizeAll values).filterMap id)

/-- A stream label in brackets; `null` is no label. -/
def wrap (label : Value) : Action Tokens String := do
  match ← normalize label with
  | some text => return "[" ++ text ++ "]"
  | none => return ""

/-- Stream labels in brackets, one after the other. -/
def wrapAll : List Value → Action Tokens String
  | [] => return ""
  | .null :: rest => wrapAll rest
  | label :: rest => do
    let first ← wrap label
    let others ← wrapAll rest
    return first ++ others

/-- A text with the special characters of the filter language escaped. -/
def escapeText (text : String) (quote : Bool) : String :=
  let text := escaped text.toList
  String.ofList (if quote then enclosed '\'' text else text)

/-- The spelling of a value with the special characters of the filter language escaped. -/
def escapeValue (value : Value) (quote : Bool) : Except Failure String :=
  return escapeText (← value.spelled) quote

namespace Value

/-- The values that iterating over a value visits. -/
def items : Value → Except Failure (List Value)
  | .list items | .tuple items => .ok items
  | .text s => .ok (s.toList.map fun c => .text (String.singleton c))
  | .mapping entries => .ok (entries.map (·.1))
  | .table entries => .ok (entries.map fun entry => .text entry.1)
  | value => .error (.notIterable value.kind)

/-- The double that a value is, where only finite ones will do. -/
def requireFinite : Double → Except Failure FiniteDouble
  | .finite x => .ok x
  | .infinite _ => .error .infinityToInteger
  | .nan => .error .nanToInteger

/-- The number that a decimal is, where only finite ones will do. -/
def requireFiniteDecimal : Decimal → Except Failure Rat
  | .finite x => .ok x.toRat
  | .infinite _ => .error .decimalInfinityToInteger
  | .nan .. => .error .decimalNanToInteger

/-- Whether a number counts as an integer. -/
def isInteger : Value → Except Failure Bool
  | .int _ | .bool _ => .ok true
  | .float x => return (← requireFinite x).isWhole
  | .decimal d => do
    let q ← requireFiniteDecimal d
    return decide (q - q.floor < FiniteDouble.snapDistance)
  | value => .error (.notNumber value.kind)

/-- The number of fractional digits of a number. Of a decimal only those that are integers count
theirs, which are none. -/
def fractionDigits : Value → Except Failure Nat
  | .int _ | .bool _ => .ok 0
  | .float x => return (← requireFinite x).fractionDigits
  | .decimal d => do
    let q ← requireFiniteDecimal d
    if q = q.floor then return 0 else throw .decimalSyntax
  | .text s => do
    let _ ← readInteger s.toList
    throw .decimalSyntax
  | value => .error (.noInteger value.kind)

end Value

end MediaCommand
