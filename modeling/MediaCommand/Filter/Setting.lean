import MediaCommand.Filter.Node
import MediaCommand.Number.Decimal

/-!
# Settings of filters

The options that the filters offer: those that take a value as it is, switches, values that must
lie in a range, and the few that are put together from several values.
-/

namespace MediaCommand

/-- A setting that takes one value as it is. -/
inductive FilterSetting where
  | evaluation
  | scaleFlags
  | inRange
  | outRange
  | aspectRatio
  | overlayFormat
  | alphaFormat
  | endOfStream
  | startTime
  | rounding
  | fadeStartFrame
  | fadeFrames
  | fadeStart
  | fadeLength
  | transitionOffset
  | transitionExpression
  | segments
  | videoStreams
  | audioStreams
  | loops
  | streamIndex
  | seekPoint
  deriving DecidableEq, Repr

/-- The name of a setting in the filter language. -/
def FilterSetting.key : FilterSetting → String
  | .evaluation => "eval"
  | .scaleFlags => "flags"
  | .inRange => "in_range"
  | .outRange => "out_range"
  | .aspectRatio => "force_original_aspect_ratio"
  | .overlayFormat => "format"
  | .alphaFormat => "alpha"
  | .endOfStream => "eof_action"
  | .startTime => "start_time"
  | .rounding => "round"
  | .fadeStartFrame => "s"
  | .fadeFrames => "n"
  | .fadeStart => "st"
  | .fadeLength => "d"
  | .transitionOffset => "offset"
  | .transitionExpression => "expr"
  | .segments => "n"
  | .videoStreams => "v"
  | .audioStreams => "a"
  | .loops => "loop"
  | .streamIndex => "stream_index"
  | .seekPoint => "seek_point"

/-- A setting that is on or off. -/
inductive FilterSwitch where
  | interlacing
  | keepAspect
  | exactCrop
  | fadeAlpha
  | shortest
  | repeatLast
  deriving DecidableEq, Repr

def FilterSwitch.key : FilterSwitch → String
  | .interlacing => "interl"
  | .keepAspect => "keep_aspect"
  | .exactCrop => "exact"
  | .fadeAlpha => "alpha"
  | .shortest => "shortest"
  | .repeatLast => "repeatlast"

/-- A setting whose value must lie in a closed interval. -/
inductive RangedSetting where
  | divisibleBy
  | transitionLength
  | contrast
  | brightness
  | saturation
  | gamma
  | gammaWeight
  deriving DecidableEq, Repr

namespace RangedSetting

def key : RangedSetting → String
  | .divisibleBy => "force_divisible_by"
  | .transitionLength => "duration"
  | .contrast => "contrast"
  | .brightness => "brightness"
  | .saturation => "saturation"
  | .gamma => "gamma"
  | .gammaWeight => "gamma_weight"

/-- A bound given as the double of a decimal number. -/
private def bound (negative : Bool) (coefficient : Nat) (exponent : Int) : Value :=
  .float (.ofScaled ⟨negative, coefficient, exponent⟩)

/-- The ends of the interval. -/
def bounds : RangedSetting → Value × Value
  | .divisibleBy => (.int 1, .int 256)
  | .transitionLength => (.int 0, .int 60)
  | .contrast => (bound true 1000 0, bound false 1000 0)
  | .brightness => (bound true 1 0, bound false 1 0)
  | .saturation => (bound false 0 0, bound false 3 0)
  | .gamma => (bound false 1 (-1), bound false 10 0)
  | .gammaWeight => (bound false 1 (-1), bound false 1 0)

/-- Whether every value is checked. Otherwise only integers and doubles are; other values pass as
expressions. -/
def isStrict : RangedSetting → Bool
  | .divisibleBy | .transitionLength => true
  | _ => false

end RangedSetting

namespace Node

def set (setting : FilterSetting) (value : Value) : Edit Unit := addNamed setting.key value

def toggle (switch : FilterSwitch) (state : Value) : Edit Unit := addSwitch (some switch.key) state

private def isPlainNumber : Value → Bool
  | .int _ | .float _ => true
  | _ => false

def setRanged (setting : RangedSetting) (value : Value) : Edit Unit :=
  if setting.isStrict || isPlainNumber value then
    addRanged setting.key setting.bounds.1 setting.bounds.2 value
  else addNamed setting.key value

/-- A text with its special characters escaped; other values as they are. -/
def expressionValue : Value → Value
  | .text s => .text (escapeText s false)
  | value => value

/-- The size of a padded picture. -/
def setPadSize (width height : Value) : Edit Unit := do
  addNamed "w" (expressionValue width)
  addNamed "h" (expressionValue height)

/-- Where the input stands in a padded picture. -/
def setPadPosition (x y : Value) : Edit Unit := do
  addNamed "x" (expressionValue x)
  addNamed "y" (expressionValue y)

/-- The aspect ratio of a padded picture. -/
def setPadAspect (width height : Value) : Edit Unit := do
  let width ← Action.ofExcept width.spelled
  let height ← Action.ofExcept height.spelled
  addNamed "aspect" (.text (width ++ "/" ++ height))

/-- Sets one value when it is above zero. -/
private def setPositive (setting : FilterSetting) (value : Value) : Edit Unit := do
  if ← Action.ofExcept (value.isAbove (.int 0)) then set setting value

/-- Start and length of a fade in seconds. -/
def setFadeTimes (start length : Value) : Edit Unit := do
  setPositive .fadeStart start
  setPositive .fadeLength length

/-- Start and length of a fade in frames. -/
def setFadeFrames (start length : Value) : Edit Unit := do
  setPositive .fadeStartFrame start
  setPositive .fadeFrames length

end Node

end MediaCommand
