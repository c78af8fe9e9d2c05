import MediaCommand.Text.Blank
import MediaCommand.Text.Lines

/-!
# Listings of container formats

A listing has a header, a line of two dashes, and one line for each format: two columns of flags
within the first four characters, the name, and a description.
-/

namespace MediaCommand

/-- A container format. -/
structure ContainerFormat where
  name : String
  description : String
  demuxing : Bool
  muxing : Bool
  deriving DecidableEq, Repr

namespace ContainerFormat

/-- The width of the flag columns. -/
def flagWidth : Nat := 4

def divider : List Char := ['-', '-']

/-- The format that a line below the divider describes; a short or blank line describes none. -/
def ofLine? (line : List Char) : Option ContainerFormat :=
  if line.length < flagWidth || (trim line).isEmpty then none
  else
    let flags := line.take flagWidth
    let (name, description) := firstWord (trim (line.drop flagWidth))
    if name.isEmpty then none
    else some ⟨String.ofList name, String.ofList (trim description),
      flags.contains 'D', flags.contains 'E'⟩

/-- The lines below the divider. -/
def belowDivider (lines : List (List Char)) : List (List Char) :=
  (lines.dropWhile fun line => trim line != divider).drop 1

/-- The formats of a listing, in its order. -/
def ofListing (listing : String) : List ContainerFormat :=
  (belowDivider (lines listing.toList)).filterMap ofLine?

end ContainerFormat

end MediaCommand
