import MediaCommand.Catalog
import MediaCommand.Number.Shortest
import MediaCommand.Number.Decimal
import MediaCommand.Text.Quoted

/-!
# Values that callers hand over

An option value, a label, a log argument or a JSON document is a `Value`. `spelling` is what a value
reads as on its own, `literal` what it reads as inside a list, and `kind` names its kind in a
message. The two texts show integers of any length; `spellingFits` tells whether the first shows
none that is too long to be written.
-/

namespace MediaCommand

/-- What a caller may pass for an option. -/
inductive Value where
  | null
  | bool (b : Bool)
  | int (n : Int)
  | float (x : Double)
  | decimal (d : Decimal)
  | text (s : String)
  /-- A variant of a catalogue and what it stands for. It is neither a text nor a number itself. -/
  | member (m : Member) (worth : Value)
  | list (items : List Value)
  | tuple (items : List Value)
  | mapping (entries : List (Value × Value))
  /-- A read-only table of texts. -/
  | table (entries : List (String × String))
  /-- Any other object, by its kind and its two texts. -/
  | shown (kind alone inside : String)

namespace Value

instance : Inhabited Value := ⟨.null⟩

/-- The name of the value's kind. -/
def kind : Value → String
  | .null => "NoneType"
  | .bool _ => "bool"
  | .int _ => "int"
  | .float _ => "float"
  | .decimal _ => "decimal.Decimal"
  | .text _ => "str"
  | .member m _ => m.catalog.name
  | .list _ => "list"
  | .tuple _ => "tuple"
  | .mapping _ => "dict"
  | .table _ => "mappingproxy"
  | .shown kind _ _ => kind

/-- Whether the value counts as present: zeros and empty collections do not. -/
def isTruthy : Value → Bool
  | .null => false
  | .bool b => b
  | .int n => n ≠ 0
  | .float x => !x.isZero
  | .decimal (.finite x) => x.coefficient ≠ 0
  | .decimal _ => true
  | .text s => s ≠ ""
  | .member _ _ => true
  | .list items => !items.isEmpty
  | .tuple items => !items.isEmpty
  | .mapping entries => !entries.isEmpty
  | .table entries => !entries.isEmpty
  | .shown .. => true

/-- Whether a value is there at all. -/
def isPresent : Value → Bool
  | .null => false
  | _ => true

private def entryText (entry : String × String) : String :=
  quoted entry.1 ++ ": " ++ quoted entry.2

mutual

/-- The text of a value inside a collection. -/
def literal : Value → String
  | .null => "None"
  | .bool b => if b then "True" else "False"
  | .int n => toString n
  | .float x => x.text
  | .decimal d => "Decimal('" ++ d.text ++ "')"
  | .text s => quoted s
  | .member m worth => "<" ++ m.catalog.name ++ "." ++ m.name ++ ": " ++ literal worth ++ ">"
  | .list items => "[" ++ ", ".intercalate (literals items) ++ "]"
  | .tuple items => match items with
    | [item] => "(" ++ literal item ++ ",)"
    | items => "(" ++ ", ".intercalate (literals items) ++ ")"
  | .mapping entries => "\x7b" ++ ", ".intercalate (entryLiterals entries) ++ "\x7d"
  | .table entries =>
    "mappingproxy(\x7b" ++ ", ".intercalate (entries.map entryText) ++ "\x7d)"
  | .shown _ _ inside => inside

def literals : List Value → List String
  | [] => []
  | item :: rest => literal item :: literals rest

def entryLiterals : List (Value × Value) → List String
  | [] => []
  | (key, value) :: rest => (literal key ++ ": " ++ literal value) :: entryLiterals rest

end

/-- The text of a value on its own. -/
def spelling : Value → String
  | .text s => s
  | .decimal d => d.text
  | .member m _ => m.catalog.name ++ "." ++ m.name
  | .table entries => "\x7b" ++ ", ".intercalate (entries.map entryText) ++ "\x7d"
  | .shown _ alone _ => alone
  | value => value.literal

mutual

/-- Whether every integer that a value shows inside a collection can be written. -/
def literalFits : Value → Bool
  | .int n => decide (IsConvertible n)
  | .member _ worth => literalFits worth
  | .list items => literalsFit items
  | .tuple items => literalsFit items
  | .mapping entries => entryLiteralsFit entries
  | _ => true

def literalsFit : List Value → Bool
  | [] => true
  | item :: rest => literalFits item && literalsFit rest

def entryLiteralsFit : List (Value × Value) → Bool
  | [] => true
  | (key, value) :: rest => literalFits key && literalFits value && entryLiteralsFit rest

end

/-- Whether every integer that a value shows on its own can be written. A member shows its name
alone. -/
def spellingFits : Value → Bool
  | .member .. => true
  | value => value.literalFits

end Value

end MediaCommand
