import MediaCommand.Keyed

/-!
# Catalogues of option values

A catalogue is a named list of variants, such as the encoding presets. Two declared variants may
stand for the same thing; the first name is then the canonical one. A `Member` is a variant by
its canonical name.
-/

namespace MediaCommand

/-- A declared variant and the first name declared for the same thing. -/
structure Variant where
  name : String
  canonical : String
  deriving DecidableEq, Repr

/-- A catalogue. The serial tells catalogues of one name apart; the fixed ones have `0`. -/
structure Catalog where
  name : String
  serial : Nat
  variants : List Variant
  deriving DecidableEq, Repr

namespace Catalog

/-- The declared names in order of declaration. -/
def names (catalog : Catalog) : List String := catalog.variants.map (·.name)

/-- A fixed catalogue of distinct variants. -/
def fixed (name : String) (variants : List String) : Catalog :=
  ⟨name, 0, variants.map fun v => ⟨v, v⟩⟩

/-- A catalogue of named things, where `same` tells when two names stand for the same. -/
def declare {α : Type} (name : String) (serial : Nat) (same : α → α → Bool)
    (things : List (String × α)) : Catalog :=
  ⟨name, serial, things.map fun thing =>
    ⟨thing.1, ((things.find? fun earlier => same earlier.2 thing.2).getD thing).1⟩⟩

end Catalog

/-- One variant of a catalogue, by its canonical name. -/
structure Member where
  catalog : Catalog
  name : String
  deriving DecidableEq, Repr

/-- The member that a declared name stands for. -/
def Catalog.member? (catalog : Catalog) (name : String) : Option Member :=
  (catalog.variants.find? fun v => decide (v.name = name)).map fun v => ⟨catalog, v.canonical⟩

end MediaCommand
