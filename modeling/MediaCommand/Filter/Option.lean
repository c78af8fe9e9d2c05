import MediaCommand.Filter.Setting

/-!
# Filter options by name

A caller that holds the name of an option as a text finds here what the option does with its value.
A class offers its own options and those of its ancestors.
-/

namespace MediaCommand

/-- What an option does with its value. -/
inductive FilterOption where
  | value (setting : FilterSetting)
  | ranged (setting : RangedSetting)
  | onOff (switch : FilterSwitch)
  deriving DecidableEq, Repr

namespace FilterClass

/-- The options that the classes of the library add to those of their ancestors. -/
def ownOptions : Keyed FilterClass (Keyed String FilterOption) := [
  (scale, [
    ("eval", .value .evaluation), ("flags", .value .scaleFlags), ("in_range", .value .inRange),
    ("out_range", .value .outRange), ("force_original_aspect_ratio", .value .aspectRatio),
    ("force_divisible_by", .ranged .divisibleBy), ("interlacing", .onOff .interlacing)]),
  (crop, [("keep_aspect", .onOff .keepAspect), ("exact", .onOff .exactCrop)]),
  (pad, [("eval", .value .evaluation)]),
  (overlay, [
    ("eval", .value .evaluation), ("format", .value .overlayFormat),
    ("alpha", .value .alphaFormat), ("eof_action", .value .endOfStream),
    ("shortest", .onOff .shortest), ("repeat_last", .onOff .repeatLast)]),
  (fps, [
    ("start_time", .value .startTime), ("round", .value .rounding),
    ("eof_action", .value .endOfStream)]),
  (fade, [
    ("start_frame", .value .fadeStartFrame), ("total_frames", .value .fadeFrames),
    ("start_time", .value .fadeStart), ("duration", .value .fadeLength),
    ("alpha", .onOff .fadeAlpha)]),
  (xfade, [
    ("offset", .value .transitionOffset), ("duration", .ranged .transitionLength),
    ("expression", .value .transitionExpression)]),
  (concat, [
    ("input", .value .segments), ("video", .value .videoStreams),
    ("audio", .value .audioStreams)]),
  (movie, [
    ("loop", .value .loops), ("stream_index", .value .streamIndex),
    ("seek_point", .value .seekPoint)]),
  (eq, [
    ("contrast", .ranged .contrast), ("brightness", .ranged .brightness),
    ("saturation", .ranged .saturation), ("gamma", .ranged .gamma),
    ("gamma_weight", .ranged .gammaWeight), ("eval", .value .evaluation)])]

/-- The option of a class under a name. -/
def option? (cls : FilterClass) (name : String) : Option FilterOption :=
  cls.lineage.findSome? fun ancestor => (ownOptions.get? ancestor).bind (·.get? name)

end FilterClass

namespace Node

/-- Sets an option. A switch that is given no value is switched on. -/
def setOption (option : FilterOption) (value : Option Value) : Edit Unit :=
  match option with
  | .value setting => set setting (value.getD .null)
  | .ranged setting => setRanged setting (value.getD .null)
  | .onOff switch => toggle switch (value.getD (.bool true))

end Node

end MediaCommand
