/-!
# Entries by key, in order of arrival

A keyed list holds at most one entry for a key. Writing to a key that is present keeps the place
of its entry.
-/

namespace MediaCommand

/-- Entries in the order their keys first arrived. -/
abbrev Keyed (κ β : Type) := List (κ × β)

namespace Keyed

variable {κ β : Type} [DecidableEq κ]

def get? (entries : Keyed κ β) (key : κ) : Option β :=
  (entries.find? fun entry => decide (entry.1 = key)).map (·.2)

def keys (entries : Keyed κ β) : List κ := entries.map (·.1)

/-- Writes a value: in place for a key that is present, otherwise at the end. -/
def put (entries : Keyed κ β) (key : κ) (value : β) : Keyed κ β :=
  match entries with
  | [] => [(key, value)]
  | entry :: rest => if entry.1 = key then (key, value) :: rest else entry :: put rest key value

def erase (entries : Keyed κ β) (key : κ) : Keyed κ β :=
  entries.filter fun entry => decide (entry.1 ≠ key)

/-- The keyed list that results from writing every entry in turn. -/
def ofList (entries : List (κ × β)) : Keyed κ β :=
  entries.foldl (fun done entry => done.put entry.1 entry.2) []

end Keyed

end MediaCommand
