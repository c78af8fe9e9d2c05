import MediaCommand.Catalog.Fixed
import MediaCommand.Filter.Class
import MediaCommand.Value.Color
import MediaCommand.Value.Order

/-!
# Filter nodes

A node holds named and positional arguments. Base arguments are held back until the first other
argument arrives or the node is rendered, and are then written as positional ones, in the order
their names first came. After that a base argument is written as a positional one at once.
-/

namespace MediaCommand

/-- An argument as it is rendered; without a name it is positional. -/
structure FilterArgument where
  name : Option String
  value : Option String
  deriving DecidableEq, Repr

namespace FilterArgument

def isPositional (argument : FilterArgument) : Bool := argument.name.isNone

/-- The text of an argument. A positional one without a value has none. -/
def render (argument : FilterArgument) : Option String :=
  match argument.name, argument.value with
  | none, value => value
  | some name, none => some name
  | some name, some value => some (name ++ "=" ++ value)

end FilterArgument

/-- Whether base arguments are still held back. -/
inductive Phase where
  | buffering
  | flushed
  deriving DecidableEq, Repr

def Phase.name : Phase → String
  | .buffering => "buffering"
  | .flushed => "flushed"

/-- The phase as a constant. -/
def Phase.constant (phase : Phase) : Value :=
  let variant := match phase with
    | .buffering => "BUFFERING"
    | .flushed => "FLUSHED"
  .member ⟨.argState, variant⟩ (.text phase.name)

/-- A node of a class. `ownName` is the filter name of a node that carries it itself. -/
structure Node where
  cls : FilterClass
  ownName : Option (Option String)
  separator : String
  phase : Phase
  base : Keyed (Option String) Value
  arguments : List FilterArgument

namespace Node

/-- The separator of arguments and of joined values. -/
def defaultSeparator : String := ":"

def fresh (cls : FilterClass) (separator : String) : Node :=
  ⟨cls, none, separator, .buffering, [], []⟩

/-- A node that carries the name of its filter. -/
def freshNamed (cls : FilterClass) (name : Option String) (separator : String) : Node :=
  { fresh cls separator with ownName := some name }

/-- A list of arguments after one more. A name that occurs gets the new value in its place. -/
def written : List FilterArgument → FilterArgument → List FilterArgument
  | [], argument => [argument]
  | first :: rest, argument =>
    if argument.name ≠ none ∧ first.name = argument.name then argument :: rest
    else first :: written rest argument

/-- The node after one more argument. -/
def store (node : Node) (name value : Option String) : Node :=
  { node with arguments := written node.arguments ⟨name, value⟩ }

/-- The arguments joined and wrapped, without the filter's name. -/
def body (node : Node) : String :=
  let (opening, closing) := node.cls.wrapper
  opening ++ node.separator.intercalate (node.arguments.filterMap FilterArgument.render) ++ closing

/-- The expression under a filter name; without arguments it is the name alone. -/
def expression (node : Node) (name : Option String) : String :=
  if node.arguments.isEmpty then name.getD ""
  else match name with
    | none => node.body
    | some name => name ++ "=" ++ node.body

/-- A node at work, beside the tokens that its values are written with. -/
structure Desk where
  tokens : Tokens
  node : Node

/-- An operation on a node. -/
abbrev Edit (α : Type) := Action Desk α

/-- Runs a lookup of tokens. -/
def withTokens {α : Type} (action : Action Tokens α) : Edit α :=
  Action.within Desk.tokens (fun tokens desk => { desk with tokens }) action

/-- Changes the node. -/
def change (f : Node → Node) : Edit Unit :=
  modify fun desk => { desk with node := f desk.node }

/-- Writes values as positional arguments. -/
def storeAll : List Value → Edit Unit
  | [] => return
  | value :: rest => do
    let text ← withTokens (normalize value)
    change (·.store none text)
    storeAll rest

/-- Writes the base arguments that were held back. The node counts as flushed from the start, so
a value that cannot be written loses those after it. -/
def flush : Edit Unit := do
  let node := (← get).node
  match node.phase with
  | .flushed => return
  | .buffering =>
    change fun node => { node with phase := .flushed, base := [] }
    storeAll (node.base.map (·.2))

/-- Adds a base argument. -/
def addBase (name : Option String) (value : Value) : Edit Unit := do
  match (← get).node.phase with
  | .flushed =>
    let text ← withTokens (normalize value)
    change (·.store none text)
  | .buffering => change fun node => { node with base := node.base.put name value }

/-- The text of the values of one argument: none, the only one's, or all joined. -/
def joined (separator : String) : List Value → Action Tokens (Option String)
  | [] => return none
  | [value] => normalize value
  | values => some <$> expandAll separator values

/-- Adds an argument whose values are joined by a separator. -/
def addJoined (name : Option String) (separator : String) (values : List Value) : Edit Unit := do
  flush
  let text ← withTokens (joined separator values)
  change (·.store name text)

/-- Adds an argument whose values are joined by the node's separator. -/
def add (name : Option String) (values : List Value) : Edit Unit := do
  addJoined name (← get).node.separator values

/-- Adds one named value. -/
def addNamed (name : String) (value : Value) : Edit Unit := add (some name) [value]

/-- Adds a switch: `1` for a value that counts as present, otherwise `0`. -/
def addSwitch (name : Option String) (state : Value) : Edit Unit :=
  add name [.int (if state.isTruthy then 1 else 0)]

/-- Adds one named value after checking that it lies between two bounds. -/
def addRanged (name : String) (low high value : Value) : Edit Unit := do
  Action.ofExcept (value.checkRange low high)
  addNamed name value

/-- Adds a colour: three channels or a name, and its opacity when that is above zero. -/
def addColor (color alpha : Value) : Edit Unit := do
  let text ← match color with
    | .tuple channels => some <$> Action.ofExcept (Value.hexColor (.tuple channels) "0x")
    | color => withTokens (normalize color)
  let text ← if ← Action.ofExcept (alpha.isAbove (.int 0)) then
      let opacity ← withTokens (normalize alpha)
      pure (some (shown text ++ "@" ++ shown opacity))
    else pure text
  addNamed "color" (match text with
    | some text => .text text
    | none => .null)
where
  /-- A text inside another; a missing one is spelled out. -/
  shown (text : Option String) : String := text.getD "None"

end Node

end MediaCommand
