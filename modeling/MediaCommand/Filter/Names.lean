import MediaCommand.Failure
import MediaCommand.Filter.Class

/-!
# Names of filters

A tag declares the filter that the nodes of a class stand for. The name of a class is the tag of
the nearest class in its line, fixed by the first lookup of that class.
-/

namespace MediaCommand

/-- The tags and the names that lookups have fixed. -/
structure FilterNames where
  tags : Keyed FilterClass String
  known : Keyed FilterClass (Option String)

namespace FilterNames

/-- The name that a first lookup would fix now. -/
def nearest (names : FilterNames) (cls : FilterClass) : Option String :=
  cls.lineage.findSome? names.tags.get?

/-- The name that lookups answer. -/
def view (names : FilterNames) (cls : FilterClass) : Option String :=
  (names.known.get? cls).getD (names.nearest cls)

/-- The state after a lookup of a class. -/
def settle (names : FilterNames) (cls : FilterClass) : FilterNames :=
  match names.known.get? cls with
  | some _ => names
  | none => { names with known := names.known.put cls (names.nearest cls) }

/-- The name of a class. The first call fixes it. -/
def lookup (cls : FilterClass) : Action FilterNames (Option String) := do
  let names ← get
  set (names.settle cls)
  return names.view cls

/-- Declares the tag of a class, in place of an earlier one. -/
def tag (cls : FilterClass) (name : String) : Action FilterNames Unit :=
  modify fun names => { names with tags := names.tags.put cls name }

/-- The tags of the library's own classes. -/
def initial : FilterNames :=
  ⟨[(.scale, "scale"), (.crop, "crop"), (.pad, "pad"), (.overlay, "overlay"), (.fps, "fps"),
    (.format, "format"), (.fade, "fade"), (.xfade, "xfade"), (.concat, "concat"),
    (.movie, "movie"), (.eq, "eq")], []⟩

end FilterNames

end MediaCommand
