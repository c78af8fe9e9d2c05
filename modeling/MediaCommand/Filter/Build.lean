import MediaCommand.Filter.Overlay
import MediaCommand.Filter.Setting

/-!
# Building nodes

One function for each filter. `cls` is the class of the new node, which may be a class below the
filter's own.
-/

namespace MediaCommand

namespace Node

/-- The node that results from working on a fresh one. -/
def build (start : Node) (edit : Edit Unit) : Action Tokens Node := fun tokens =>
  match edit ⟨tokens, start⟩ with
  | .ok _ desk => .ok desk.node desk.tokens
  | .error failure desk => .error failure desk.tokens

private def make (cls : FilterClass) (edit : Edit Unit) : Action Tokens Node :=
  build (fresh cls defaultSeparator) edit

/-- A base argument that may be missing. -/
private def addBasePresent (name : String) (value : Value) : Edit Unit := do
  if value.isPresent then addBase (some name) value

private def setPresent (setting : FilterSetting) (value : Value) : Edit Unit := do
  if value.isPresent then set setting value

/-- Scales to a named size, or to a width and a height. -/
def scale (cls : FilterClass) (width height : Value) : Action Tokens Node :=
  if width.isMemberOf .videoSize then make cls (addNamed "s" width)
  else if height.isPresent then make cls do
    addBase (some "w") width
    addBase (some "h") height
  else throw (.contract .missingHeight)

/-- Crops to a size, from a position when one is given. -/
def crop (cls : FilterClass) (width height x y : Value) : Action Tokens Node := make cls do
  addBase (some "w") width
  addBase (some "h") height
  addBasePresent "x" x
  addBasePresent "y" y

private def overlayAt (cls : FilterClass) (x y : Value) : Action Tokens Node := make cls do
  addBase (some "x") x
  addBase (some "y") y

/-- Overlays at a named position with margins. -/
def overlayAnchored (cls : FilterClass) (position x y : Value) : Action Tokens Node := do
  let x ← position.positionX x
  let y ← position.positionY y
  overlayAt cls (.text x) (.text y)

/-- Overlays at a position; a named one has no margin. -/
def overlay (cls : FilterClass) (x y : Value) : Action Tokens Node :=
  if x.isMemberOf .overlays then overlayAnchored cls x (.int 0) (.int 0) else overlayAt cls x y

/-- A picture turned over sideways or upside down. -/
def flip (cls : FilterClass) (vertical : Bool) : Node :=
  freshNamed cls (some (if vertical then "vflip" else "hflip")) defaultSeparator

/-- A frame rate. -/
def fps (cls : FilterClass) (rate : Value) : Action Tokens Node := make cls (addNamed "fps" rate)

/-- One of several pixel formats. -/
def pixelFormat (cls : FilterClass) (formats : List Value) : Action Tokens Node :=
  if formats.isEmpty then throw (.contract .noPixelFormat)
  else make cls (addJoined none "|" formats)

/-- A fade in or out. -/
def fade (cls : FilterClass) (direction : String) : Action Tokens Node :=
  make cls (addNamed "t" (.text direction))

/-- A transition between two inputs. -/
def crossFade (cls : FilterClass) (transition offset length : Value) : Action Tokens Node :=
  make cls do
    addNamed "transition" transition
    setPresent .transitionOffset offset
    if length.isPresent then setRanged .transitionLength length

/-- Segments one after the other. -/
def concat (cls : FilterClass) (segments video audio : Value) : Action Tokens Node := make cls do
  set .segments segments
  setPresent .videoStreams video
  setPresent .audioStreams audio

/-- A file as a source. The path is escaped and quoted. -/
def movie (cls : FilterClass) (path : Value) : Action Tokens Node := do
  let name ← Action.ofExcept (escapeValue path true)
  make cls (addBase (some "filename") (.text name))

end Node

end MediaCommand
