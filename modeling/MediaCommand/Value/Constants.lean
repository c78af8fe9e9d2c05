import MediaCommand.Keyed
import MediaCommand.Value.Order

/-!
# Catalogues of constants

The names of a catalogue stand for values. Names of equal values are one variant, and its value is
that of the first of them.
-/

namespace MediaCommand

/-- A catalogue and what its names stand for. -/
structure Constants where
  catalog : Catalog
  worths : Keyed String Value

namespace Constants

/-- The catalogue that a declaration makes. -/
def declare (name : String) (serial : Nat) (worths : Keyed String Value) : Constants :=
  ⟨.declare name serial Value.sameAs worths, worths⟩

/-- The variant that a declared name stands for. -/
def member? (constants : Constants) (name : String) : Option Value :=
  (constants.catalog.member? name).map fun m =>
    .member m ((constants.worths.get? m.name).getD .null)

end Constants

end MediaCommand
