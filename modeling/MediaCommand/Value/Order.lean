import MediaCommand.Value.Text

/-!
# The order of numeric values

Integers, doubles and decimals are compared by their exact values. A double that is no number is
neither below nor above anything; comparing a decimal that is none fails.
-/

namespace MediaCommand

/-- A number of any kind, for comparing. -/
inductive Quantity where
  | finite (x : Scaled)
  | infinite (negative : Bool)
  | nan
  deriving DecidableEq

namespace Quantity

def ofDouble : Double → Quantity
  | .finite x => .finite x.toScaled
  | .infinite negative => .infinite negative
  | .nan => .nan

def ofDecimal : Decimal → Quantity
  | .finite x => .finite x
  | .infinite negative => .infinite negative
  | .nan .. => .nan

/-- The order of two quantities; a NaN has none. -/
def compare? : Quantity → Quantity → Option Ordering
  | .nan, _ | _, .nan => none
  | .infinite a, .infinite b => some (if a = b then .eq else if a then .lt else .gt)
  | .infinite a, .finite _ => some (if a then .lt else .gt)
  | .finite _, .infinite b => some (if b then .gt else .lt)
  | .finite x, .finite y => some (x.compare y)

end Quantity

namespace Value

/-- The number that a value is, if it is one. -/
def quantity? : Value → Option Quantity
  | .bool b => some (.finite (.ofInt b.toNat))
  | .int n => some (.finite (.ofInt n))
  | .float x => some (.ofDouble x)
  | .decimal d => some (.ofDecimal d)
  | _ => none

mutual

/-- Whether two values are equal. Numbers of all kinds are compared by their exact values; a NaN
is equal to nothing. -/
def sameAs : Value → Value → Bool
  | .null, .null => true
  | .text s, .text t => s == t
  | .member m _, .member n _ => m == n
  | .list items, .list others | .tuple items, .tuple others => sameItems items others
  | .mapping entries, .mapping others => sameEntries entries others
  | a, b => match a.quantity?, b.quantity? with
    | some x, some y => x.compare? y == some .eq
    | _, _ => false

def sameItems : List Value → List Value → Bool
  | [], [] => true
  | a :: rest, b :: others => sameAs a b && sameItems rest others
  | _, _ => false

def sameEntries : List (Value × Value) → List (Value × Value) → Bool
  | [], [] => true
  | (key, a) :: rest, (other, b) :: others =>
    sameAs key other && sameAs a b && sameEntries rest others
  | _, _ => false

end

private def isDecimal : Value → Bool
  | .decimal _ => true
  | _ => false

/-- Whether the two values stand in the order `wanted`, written with `operator`. -/
def ordered (operator : String) (wanted : Ordering) (a b : Value) : Except Failure Bool :=
  match a, b with
  | .text s, .text t => .ok (compare s t == wanted)
  | a, b =>
    match a.quantity?, b.quantity? with
    | some x, some y =>
      match x.compare? y with
      | some order => .ok (order == wanted)
      | none => if a.isDecimal || b.isDecimal then .error .decimalInvalid else .ok false
    | _, _ => .error (.unordered operator a.kind b.kind)

def isBelow (a b : Value) : Except Failure Bool := ordered "<" .lt a b

def isAbove (a b : Value) : Except Failure Bool := ordered ">" .gt a b

/-- Refuses a value below `low` or above `high`. -/
def checkRange (value low high : Value) : Except Failure Unit := do
  if ← value.isBelow low then outside
  if ← value.isAbove high then outside
where
  /-- The refusal names the bounds and the value, which can fail itself. -/
  outside : Except Failure Unit := do
    throw (.contract (.outOfRange (← low.spelled) (← high.spelled) (← value.spelled)))

end Value

end MediaCommand
