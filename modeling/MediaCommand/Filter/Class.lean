import MediaCommand.Keyed

/-!
# Filter classes

Nodes are made from classes. Callers declare classes below others; a class is its name within a
line of ancestors. Two declarations of one name are told apart by a serial; the classes that the
library has from the start have `0`.
-/

namespace MediaCommand

/-- A class: the root of a line, or one below another. A wrapper stands around the arguments of
the nodes of the class and of all classes below it. -/
inductive FilterClass where
  | root (name : String)
  | derived (serial : Nat) (name : String) (wrapper : Option (String × String))
      (parent : FilterClass)
  deriving DecidableEq, Repr

namespace FilterClass

def name : FilterClass → String
  | .root name => name
  | .derived _ name _ _ => name

/-- The class and its ancestors, nearest first. -/
def lineage : FilterClass → List FilterClass
  | .root name => [.root name]
  | .derived serial name wrapper parent => .derived serial name wrapper parent :: parent.lineage

/-- The wrapper of the nearest class that declares one. -/
def wrapper : FilterClass → String × String
  | .root _ => ("", "")
  | .derived _ _ (some wrapper) _ => wrapper
  | .derived _ _ none parent => parent.wrapper

/-- Whether a class is another one or below it. -/
def isBelow (cls ancestor : FilterClass) : Bool := cls.lineage.contains ancestor

/-- A class of the library. -/
private def sub (name : String) (parent : FilterClass) : FilterClass := .derived 0 name none parent

/-- Nodes of any filter. -/
def filter : FilterClass := .root "FilterFunction"

/-- Nodes that take a colour. -/
def color : FilterClass := sub "ColorFunction" filter

/-- Nodes that carry the name of their filter. -/
def custom : FilterClass := sub "Custom" color

def scale : FilterClass := sub "Scale" filter

def crop : FilterClass := sub "Crop" filter

def pad : FilterClass := sub "Pad" color

def overlay : FilterClass := sub "Overlay" filter

def flip : FilterClass := sub "Flip" filter

def fps : FilterClass := sub "Fps" filter

def format : FilterClass := sub "Format" filter

def fade : FilterClass := sub "Fade" color

def xfade : FilterClass := sub "Xfade" filter

def concat : FilterClass := sub "Concat" filter

def movie : FilterClass := sub "Movie" filter

def eq : FilterClass := sub "Eq" filter

/-- The filter classes that callers can name. -/
def all : List FilterClass := [
  filter, color, custom, scale, crop, pad, overlay, flip, fps, format, fade, xfade, concat,
  movie, eq]

/-- The nearest class of the library in the line of a class. -/
def libraryClass (cls : FilterClass) : FilterClass :=
  (cls.lineage.find? all.contains).getD filter

end FilterClass

end MediaCommand
