import MediaCommand.Log.Conversion
import MediaCommand.Log.Sanitize
import MediaCommand.Text.Digit
import MediaCommand.Text.Numeral

/-!
# Message templates

A template holds directives such as `%s`, `%5s`, `%-*d` and `%(name)s`. `Template.fill` puts the
arguments in: one by one, or by name when the only argument is a mapping.
-/

namespace MediaCommand

/-- What a template is filled with. -/
inductive LogArguments where
  | positional (values : List Value)
  /-- A single mapping, whose entries are named. -/
  | named (mapping : Value)

namespace LogArguments

/-- A single mapping with entries names its values. -/
def ofList : List Value → LogArguments
  | [.mapping entries] =>
    if entries.isEmpty then .positional [.mapping entries] else .named (.mapping entries)
  | [.table entries] =>
    if entries.isEmpty then .positional [.table entries] else .named (.table entries)
  | values => .positional values

/-- A text argument with its line breaks written out. -/
def sanitizeValue : Value → Value
  | .text s => .text (String.ofList (MediaCommand.sanitize s.toList))
  | value => value

/-- The arguments with their line breaks written out. -/
def sanitized : LogArguments → LogArguments
  | .positional values => .positional (values.map sanitizeValue)
  | .named (.mapping entries) =>
    .named (.mapping (entries.map fun entry => (entry.1, sanitizeValue entry.2)))
  | .named mapping => .named mapping

end LogArguments

/-- A width or a precision: a number, or the next argument. -/
inductive Measure where
  | fixed (n : Nat)
  | given

/-- A directive. -/
structure Directive where
  key : Option String
  flags : List Char
  width : Option Measure
  precision : Option Measure
  /-- The conversion and its offset; the end of the template may cut it off. -/
  conversion : Option (Char × Nat)

/-- A part of a template. -/
inductive TemplatePart where
  | plain (c : Char)
  | directive (directive : Directive)
  /-- A directive whose name is not closed. -/
  | unclosed

namespace Template

/-- Splits a width or a precision off the front. -/
def measure : List Char → Option Measure × List Char
  | '*' :: rest => (some .given, rest)
  | text =>
    let digits := text.takeWhile isAsciiDigit
    (if digits.isEmpty then none else some (.fixed (digitsValue digits)),
      text.dropWhile isAsciiDigit)

/-- Splits a precision with its point off the front. A point alone is a precision of zero. -/
def precision : List Char → Option Measure × List Char
  | '.' :: rest => (some ((measure rest).1.getD (.fixed 0)), (measure rest).2)
  | text => (none, text)

/-- The text without the letter of a size, which says nothing. -/
def withoutSize : List Char → List Char
  | [] => []
  | c :: rest => if c = 'h' ∨ c = 'l' ∨ c = 'L' then rest else c :: rest

/-- A name up to the parenthesis that closes it, and what follows it. `depth` counts the
parentheses that the name itself has open. -/
def keyUpTo? (depth : Nat) : List Char → Option (List Char × List Char)
  | [] => none
  | ')' :: rest =>
    if depth = 0 then some ([], rest)
    else (keyUpTo? (depth - 1) rest).map fun found => (')' :: found.1, found.2)
  | '(' :: rest => (keyUpTo? (depth + 1) rest).map fun found => ('(' :: found.1, found.2)
  | c :: rest => (keyUpTo? depth rest).map fun found => (c :: found.1, found.2)

/-- The directive with a name, or without one, and what follows it. -/
def directiveWith (key : Option String) (total : Nat) (text : List Char) :
    TemplatePart × List Char :=
  let flags := text.takeWhile ("-+ #0".toList.contains ·)
  let width := measure (text.drop flags.length)
  let places := precision width.2
  match withoutSize places.2 with
  | [] => (.directive ⟨key, flags, width.1, places.1, none⟩, [])
  | conversion :: rest =>
    (.directive ⟨key, flags, width.1, places.1, some (conversion, total - rest.length - 1)⟩, rest)

/-- The directive after a percent sign, and what follows it. -/
def directive (total : Nat) : List Char → TemplatePart × List Char
  | '%' :: rest => (.plain '%', rest)
  | '(' :: rest => match keyUpTo? 0 rest with
    | some (key, rest) => directiveWith (some (String.ofList key)) total rest
    | none => (.unclosed, [])
  | text => directiveWith none total text

/-- The parts of a template. -/
def partsFrom (total : Nat) : Nat → List Char → List TemplatePart
  | 0, _ => []
  | _, [] => []
  | fuel + 1, '%' :: rest =>
    let (part, rest) := directive total rest
    part :: partsFrom total fuel rest
  | fuel + 1, c :: rest => .plain c :: partsFrom total fuel rest

def parts (template : String) : List TemplatePart :=
  partsFrom template.length template.length template.toList

end Template

/-- The next argument and those behind it. -/
def nextValue : List Value → Except Failure (Value × List Value)
  | [] => .error .formatMissing
  | value :: rest => .ok (value, rest)

/-- The integer that is taken for a star. -/
def starred : Value → Except Failure Int
  | .int n => .ok n
  | .bool b => .ok b.toNat
  | _ => .error .formatStar

/-- A measure up to a limit, if there is one, and the arguments that are left. -/
def Measure.read (name target : String) (limit : Nat) (values : List Value) :
    Option Measure → Except Failure (Option Int × List Value)
  | none => .ok (none, values)
  | some (.fixed n) => if limit < n then .error (.formatTooBig name) else .ok (some n, values)
  | some .given => do
    let (value, values) ← nextValue values
    let n ← starred value
    if limit < n ∨ n < -limit - 1 then .error (.formatBeyond target) else .ok (some n, values)

namespace Directive

/-- The layout that a directive asks for, and the arguments that are left. A negative width is one
to the left, and a negative precision is zero. -/
def layout (directive : Directive) (values : List Value) :
    Except Failure (Layout × List Value) := do
  let (width, values) ← Measure.read "width" "ssize_t" (2 ^ 63 - 1) values directive.width
  let (precision, values) ← Measure.read "precision" "int" (2 ^ 31 - 1) values directive.precision
  let width := width.getD 0
  let flags := if width < 0 then '-' :: directive.flags else directive.flags
  return (⟨flags, width.natAbs, precision.map Int.toNat⟩, values)

/-- The entry of a mapping under a name. -/
def entry? (mapping : Value) (name : String) : Option Value :=
  match mapping with
  | .mapping entries => entries.findSome? fun
    | (.text key, value) => if key = name then some value else none
    | _ => none
  | .table entries => (Keyed.get? entries name).map Value.text
  | _ => none

/-- What a directive takes from: its named entry alone, or the arguments that are left. -/
def source (named : Option Value) (values : List Value) (directive : Directive) :
    Except Failure (List Value) :=
  match directive.key, named with
  | none, _ => .ok values
  | some _, none => .error .formatMapping
  | some name, some mapping => match entry? mapping name with
    | some value => .ok [value]
    | none => .error (.formatKey name)

/-- The text of a directive and the arguments that are left. -/
def fill (named : Option Value) (values : List Value) (directive : Directive) :
    Except Failure (List Char × List Value) := do
  let (layout, values) ← directive.layout (← directive.source named values)
  match directive.conversion with
  | none => throw .formatIncomplete
  | some (conversion, place) => do
    let (value, values) ← nextValue values
    return (← Conversion.convert layout conversion place value, values)

end Directive

namespace Template

/-- Fills the parts with values in turn; `named` is the mapping for directives with a name. -/
def fillParts (named : Option Value) (values : List Value) :
    List TemplatePart → Except Failure (List Char)
  | [] => if values.isEmpty || named.isSome then .ok [] else .error .formatUnused
  | .plain c :: rest => return c :: (← fillParts named values rest)
  | .unclosed :: _ => .error (if named.isSome then .formatKeyUnclosed else .formatMapping)
  | .directive directive :: rest => do
    let (text, values) ← directive.fill named values
    return text ++ (← fillParts named values rest)

/-- The template with its arguments. Without arguments nothing in it is a directive. -/
def fill (template : String) : LogArguments → Except Failure String
  | .positional [] => .ok template
  | .positional values => return String.ofList (← fillParts none values (parts template))
  | .named mapping => return String.ofList (← fillParts (some mapping) [mapping] (parts template))

end Template

end MediaCommand
