import MediaCommand.Failure
import MediaCommand.Text.Case

/-!
# Tokens of catalogue members

Each variant is written as a token: the one registered for it, otherwise its name in small
letters. The table of a catalogue is fixed by its first lookup; what is registered later has no
effect on it.
-/

namespace MediaCommand

/-- The tokens of a catalogue, by variant name. -/
abbrev TokenTable := List (String × String)

/-- The registered tokens and the tables that lookups have fixed. -/
structure Tokens where
  overrides : Keyed Catalog TokenTable
  tables : Keyed Catalog TokenTable

namespace Tokens

/-- The table that a first lookup would fix now. -/
def build (tokens : Tokens) (catalog : Catalog) : TokenTable :=
  let overrides := (tokens.overrides.get? catalog).getD []
  catalog.names.map fun name => (name, (Keyed.get? overrides name).getD (lowercase name))

/-- The table that lookups answer from. -/
def view (tokens : Tokens) (catalog : Catalog) : TokenTable :=
  (tokens.tables.get? catalog).getD (tokens.build catalog)

/-- The state after a lookup in a catalogue. -/
def settle (tokens : Tokens) (catalog : Catalog) : Tokens :=
  match tokens.tables.get? catalog with
  | some _ => tokens
  | none => { tokens with tables := tokens.tables.put catalog (tokens.build catalog) }

/-- The table of a catalogue. The first call fixes it. -/
def table (catalog : Catalog) : Action Tokens TokenTable := do
  let tokens ← get
  set (tokens.settle catalog)
  return tokens.view catalog

/-- The token of a variant. -/
def resolve (catalog : Catalog) (name : String) : Action Tokens String := do
  match Keyed.get? (← table catalog) name with
  | some token => return token
  | none => throw (.unknownVariant catalog.name name)

/-- What a member answers when it is asked for its token. A variant that is named like the question
stands in its place, and cannot be asked. -/
def command (m : Member) : Action Tokens String :=
  if "command" ∈ m.catalog.names then throw (.notCallable m.catalog.name)
  else resolve m.catalog m.name

/-- Registers tokens in place of all that were registered before. Each must name a variant. -/
def register (catalog : Catalog) (overrides : TokenTable) : Action Tokens Unit := do
  let unknown := (overrides.map (·.1)).filter (!catalog.names.contains ·)
  if unknown.isEmpty then
    modify fun tokens => { tokens with overrides := tokens.overrides.put catalog overrides }
  else
    throw (.contract (.undeclaredVariants catalog.name
      (unknown.eraseDups.mergeSort fun a b => decide (a ≤ b))))

end Tokens

end MediaCommand
