import MediaCommand.Probe.Json
import MediaCommand.Progress.Clock
import MediaCommand.Value.Normal

/-!
# Probe results

What a probe tells about a media source. The numeric fields of the format may be given as numbers
or as their texts; a field that is neither is `none`.
-/

namespace MediaCommand

/-- The outcome of a probe. Streams and raw data are kept as the document had them. -/
structure ProbeResult where
  success : Bool
  streams : Value
  formatName : Value
  duration : Option Double
  bitRate : Option Int
  size : Option Int
  error : String
  raw : Option Value

namespace Value

/-- The entry of a mapping under a text. -/
def entryFor? (key : String) : List (Value × Value) → Option Value
  | [] => none
  | (.text name, value) :: rest => if name = key then some value else entryFor? key rest
  | _ :: rest => entryFor? key rest

/-- The entry of a mapping, or `default`; other values have no entries. -/
def field (value : Value) (key : String) (default : Value) : Except Failure Value :=
  match value with
  | .mapping entries => .ok ((entryFor? key entries).getD default)
  | value => .error (.noAttribute value.kind "get")

/-- The double that a value denotes. A value that counts as absent denotes none. -/
def toDouble? (value : Value) : Except Failure (Option Double) :=
  if !value.isTruthy then .ok none
  else match value with
    | .text s => .ok (real? s.toList)
    | .int n => some <$> Double.ofInt? n
    | .bool b => .ok (some (.ofInt b.toNat))
    | .float x => .ok (some x)
    | _ => .ok none

/-- The integer that a value denotes. A value that counts as absent denotes none. -/
def toInt? (value : Value) : Except Failure (Option Int) :=
  if !value.isTruthy then .ok none
  else match value with
    | .text s => .ok (integer? s.toList)
    | .int n => .ok (some n)
    | .bool b => .ok (some b.toNat)
    | .float (.finite x) => .ok (some x.truncate)
    | .float (.infinite _) => .error .infinityToInteger
    | _ => .ok none

end Value

namespace ProbeResult

/-- A result that tells nothing. -/
def empty : ProbeResult := ⟨true, .list [], .text "", none, none, none, "", none⟩

def failed (error : String) : ProbeResult := { empty with success := false, error }

/-- The result that a document describes. -/
def ofDocument (data : Value) : Except Failure ProbeResult :=
  match data with
  | .mapping _ => do
    let format ← data.field "format" (.mapping [])
    let streams ← data.field "streams" (.list [])
    let formatName ← format.field "format_name" (.text "")
    let duration ← (← format.field "duration" .null).toDouble?
    let bitRate ← (← format.field "bit_rate" .null).toInt?
    let size ← (← format.field "size" .null).toInt?
    return { empty with streams, formatName, duration, bitRate, size, raw := some data }
  | _ => .ok (failed "Unexpected ffprobe output")

/-- A failed probe whose output is no JSON. -/
def unparsed (problem : String) : ProbeResult := failed ("Failed to parse JSON: " ++ problem)

/-- Reads the JSON output of a probe. What is no JSON is a failed probe, also for an integer of too
many digits; but that it is nested too deep is not caught. -/
def ofOutput (depth : Nat) (output : Value) : Except Failure ProbeResult :=
  match output with
  | .text s => match Json.document depth s.toList with
    | .ok data => ofDocument data
    | .error (.refused fault left) => .ok (unparsed (Json.faultText s.toList fault left))
    | .error (.numeralTooLong digits) => .ok (unparsed (Failure.numeralTooLong digits).message)
    | .error (.nestedTooDeep container) => .error (.nestedTooDeep container)
  | output => .ok (unparsed
      ("the JSON object must be str, bytes or bytearray, not " ++ output.kind))

/-- The first stream of a type. -/
def firstStream (codecType : String) : List Value → Except Failure (Option Value)
  | [] => .ok none
  | stream :: rest => do
    match ← stream.field "codec_type" .null with
    | .text s => if s = codecType then return some stream else firstStream codecType rest
    | _ => firstStream codecType rest

def videoStream (result : ProbeResult) : Except Failure (Option Value) := do
  firstStream "video" (← result.streams.items)

def audioStream (result : ProbeResult) : Except Failure (Option Value) := do
  firstStream "audio" (← result.streams.items)

end ProbeResult

end MediaCommand
