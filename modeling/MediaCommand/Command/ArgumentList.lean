import MediaCommand.Value.Normal

/-!
# Argument lists

A command line is an ordered list of arguments, each a key with its dash and perhaps a value.
A unique key keeps its place when its value changes; other keys are appended again. Every
argument has the index it got when it was appended, and no index is given twice.
-/

namespace MediaCommand

/-- A key with its dash. A key that has one already stays as it is. -/
def commandKey (key : String) : String :=
  if key.toList.head? = some '-' then key else "-" ++ key

/-- The key that a value names. Only a text names one. -/
def Value.commandKey : Value → Except Failure String
  | .text key => .ok (MediaCommand.commandKey key)
  | key => .error (.noAttribute key.kind "startswith")

/-- The key of the output: a dash alone, which is not written. -/
def outputKey : String := "-"

/-- An option of a command line. -/
structure Argument where
  key : String
  value : Option String
  quoted : Bool
  index : Int
  deriving DecidableEq, Repr

namespace Argument

/-- An argument under a key; a missing key is refused. -/
def make (key : Value) (value : Option String) (quoted : Bool) (index : Int) :
    Except Failure Argument :=
  match key with
  | .null => .error (.contract .nullKey)
  | key => return ⟨← key.commandKey, value, quoted, index⟩

def matchesKey (argument : Argument) (key : String) : Bool := argument.key == commandKey key

/-- The words of the argument on the command line. -/
def tokens (argument : Argument) : List String :=
  (if argument.key = outputKey then [] else [argument.key]) ++
    (argument.value.map fun value =>
      if argument.quoted then doubleQuoted value else value).toList

def text (argument : Argument) : String := " ".intercalate argument.tokens

end Argument

/-- Arguments in order, and the index of the next one. -/
structure ArgumentList where
  arguments : List Argument
  nextIndex : Nat
  deriving DecidableEq, Repr

namespace ArgumentList

def empty : ArgumentList := ⟨[], 0⟩

/-- The first argument under a key. -/
def find? (list : ArgumentList) (key : String) : Option Argument :=
  list.arguments.find? (·.matchesKey key)

/-- The list without the first argument under a key. -/
def erase (list : ArgumentList) (key : String) : ArgumentList :=
  { list with arguments := list.arguments.eraseP (·.matchesKey key) }

/-- The list with an argument for a key at the end. -/
def append (list : ArgumentList) (key : String) : ArgumentList :=
  ⟨list.arguments ++ [⟨commandKey key, none, false, list.nextIndex⟩], list.nextIndex + 1⟩

/-- The list after changing the argument of an index. -/
def change (list : ArgumentList) (index : Int) (f : Argument → Argument) : ArgumentList :=
  { list with arguments := list.arguments.map fun a => if a.index = index then f a else a }

/-- The words of all arguments, behind some first words. -/
def render (list : ArgumentList) (first : List String) : List String :=
  first ++ list.arguments.flatMap Argument.tokens

def text (list : ArgumentList) : String :=
  if list.arguments.isEmpty then "[]" else "[" ++ " ".intercalate (list.render []) ++ "]"

/-- A list at work, beside the tokens that values are written with. -/
structure Desk where
  tokens : Tokens
  list : ArgumentList

/-- An operation on a list. -/
abbrev Edit (α : Type) := Action Desk α

/-- Runs a lookup of tokens. -/
def withTokens {α : Type} (action : Action Tokens α) : Edit α :=
  Action.within Desk.tokens (fun tokens desk => { desk with tokens }) action

/-- Changes the list. -/
def update (f : ArgumentList → ArgumentList) : Edit Unit :=
  modify fun desk => { desk with list := f desk.list }

/-- The key of a search. Only a text can be compared with the keys of a list that holds any. -/
def searchKey (key : Value) : Edit (Option String) := do
  match key with
  | .text key => return some key
  | key =>
    if (← get).list.arguments.isEmpty then return none
    else throw (.noAttribute key.kind "startswith")

/-- The first argument under a key, if there is one. -/
def find (key : Value) : Edit (Option Argument) := do
  match ← searchKey key with
  | some key => return (← get).list.find? key
  | none => return none

def contains (key : Value) : Edit Bool := do return (← find key).isSome

/-- The index of the argument that a value for a key goes to: the one present, when the key is
unique, otherwise a new one at the end. -/
def place (key : String) (unique : Bool) : Edit Int := do
  let list := (← get).list
  match if unique then list.find? key else none with
  | some argument => return argument.index
  | none =>
    update (·.append key)
    return list.nextIndex

/-- Writes a value under a key and returns the argument's index. The argument has its place before
its value is written, so a value that cannot be written leaves a new argument without one. -/
def put (key value : Value) (unique quoted : Bool) : Edit Int := do
  match key with
  | .null => throw (.contract .nullKey)
  | .text key =>
    let index ← place key unique
    let text ← withTokens (normalize value)
    update (·.change index ({ · with value := text, quoted }))
    return index
  | key => throw (.noAttribute key.kind "startswith")

/-- Removes the first argument under a key. -/
def remove (key : Value) : Edit Unit := do
  if let some key ← searchKey key then update (·.erase key)

/-- Changes the value of the first argument under a key, if there is one. -/
def replace (key value : Value) : Edit Unit := do
  if let some argument ← find key then
    let text ← withTokens (normalize value)
    update (·.change argument.index ({ · with value := text }))

end ArgumentList

end MediaCommand
