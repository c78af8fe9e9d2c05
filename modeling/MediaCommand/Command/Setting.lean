import MediaCommand.Catalog.Fixed
import MediaCommand.Command.ArgumentList

/-!
# Settings of commands

The options of the programs: flags without a value, settings with one value, and the few that
take several or build their value. Each is an operation on the command's argument list.
-/

namespace MediaCommand

/-- An option without a value. -/
inductive CommandFlag where
  | hideBanner
  | report
  | stats
  | noStandardInput
  | noVideo
  | noAudio
  | noSubtitle
  | showFormat
  | showVersions
  | showFrames
  | showChapters
  | showPixelFormats
  | formats
  | encoders
  | decoders
  | filters
  | version
  deriving DecidableEq, Repr

def CommandFlag.key : CommandFlag → String
  | .hideBanner => "hide_banner"
  | .report => "report"
  | .stats => "stats"
  | .noStandardInput => "nostdin"
  | .noVideo => "vn"
  | .noAudio => "an"
  | .noSubtitle => "sn"
  | .showFormat => "show_format"
  | .showVersions => "show_versions"
  | .showFrames => "show_frames"
  | .showChapters => "show_chapters"
  | .showPixelFormats => "show_pixel_formats"
  | .formats => "formats"
  | .encoders => "encoders"
  | .decoders => "decoders"
  | .filters => "filters"
  | .version => "version"

/-- The flags by the names that callers use. -/
def CommandFlag.named : Keyed String CommandFlag := [
  ("hide_banner", .hideBanner), ("report", .report), ("stats", .stats),
  ("no_stdin", .noStandardInput), ("disable_video", .noVideo), ("disable_audio", .noAudio),
  ("disable_subtitle", .noSubtitle), ("show_format", .showFormat),
  ("show_versions", .showVersions), ("show_frames", .showFrames),
  ("show_chapters", .showChapters), ("show_pixel_formats", .showPixelFormats),
  ("formats", .formats), ("encoders", .encoders), ("decoders", .decoders), ("filters", .filters),
  ("version", .version)]

/-- An option with one value. -/
inductive CommandSetting where
  | logLevel
  | threads
  | filterThreads
  | complexFilterThreads
  | maxErrorRate
  | timeLimit
  | containerFormat
  | pixelFormat
  | sizeLimit
  | timeOffset
  | target
  | frames
  | timestamp
  | preset
  | videoBitRate
  | audioBitRate
  | frameRate
  | audioRate
  | duration
  | aspect
  | passNumber
  | videoFrames
  | maxFrameRate
  | timecode
  | timeBase
  | quality
  | printFormat
  deriving DecidableEq, Repr

def CommandSetting.key : CommandSetting → String
  | .logLevel => "v"
  | .threads => "threads"
  | .filterThreads => "filter_threads"
  | .complexFilterThreads => "filter_complex_threads"
  | .maxErrorRate => "max_error_rate"
  | .timeLimit => "timelimit"
  | .containerFormat => "f"
  | .pixelFormat => "pix_fmt"
  | .sizeLimit => "fs"
  | .timeOffset => "sseof"
  | .target => "target"
  | .frames => "frames"
  | .timestamp => "timestamp"
  | .preset => "preset"
  | .videoBitRate => "b:v"
  | .audioBitRate => "b:a"
  | .frameRate => "r"
  | .audioRate => "ar"
  | .duration => "t"
  | .aspect => "aspect"
  | .passNumber => "pass"
  | .videoFrames => "vframes"
  | .maxFrameRate => "fpsmax"
  | .timecode => "timecode"
  | .timeBase => "time_base"
  | .quality => "crf"
  | .printFormat => "of"

/-- The settings by the names that callers use. -/
def CommandSetting.named : Keyed String CommandSetting := [
  ("log_level", .logLevel), ("threads", .threads), ("filter_threads", .filterThreads),
  ("filter_complex_threads", .complexFilterThreads), ("max_error_rate", .maxErrorRate),
  ("time_limit", .timeLimit), ("format", .containerFormat), ("pix_format", .pixelFormat),
  ("limit_size", .sizeLimit), ("time_offset", .timeOffset), ("target", .target),
  ("frames", .frames), ("timestamp", .timestamp), ("preset", .preset),
  ("video_bit_rate", .videoBitRate), ("audio_bit_rate", .audioBitRate),
  ("frame_rate", .frameRate), ("audio_rate", .audioRate), ("duration", .duration),
  ("aspect", .aspect), ("pass_number", .passNumber), ("video_frames", .videoFrames),
  ("max_frame_rate", .maxFrameRate), ("timecode", .timecode), ("time_base", .timeBase),
  ("crf", .quality), ("print_format", .printFormat)]

namespace ArgumentList

/-- Writes a value under a key that occurs once. -/
def write (key : String) (value : Value) : Edit Unit := do
  let _ ← put (.text key) value true false

/-- Adds a value under a key that may occur again. -/
def addAgain (key : String) (value : Value) : Edit Unit := do
  let _ ← put (.text key) value false false

def flag (option : CommandFlag) : Edit Unit := write option.key .null

def set (option : CommandSetting) (value : Value) : Edit Unit := write option.key value

/-- Whether outputs are overwritten without asking, or never. -/
def setOverwrite (overwrite : Value) : Edit Unit := do
  let (wanted, other) := if overwrite.isTruthy then ("y", "n") else ("n", "y")
  remove (.text other)
  write wanted .null

/-- The processor features to use, joined by plus signs. -/
def setFeatures (flags : List Value) : Edit Unit := do
  write "cpuflags" (.text (← withTokens (expandAll "+" flags)))

/-- Adds every input that is present. -/
def addInputs : List Value → Edit Unit
  | [] => return
  | path :: rest => do
    if path.isTruthy then addAgain "i" path
    addInputs rest

/-- The codec of all streams, or of those of a type. -/
def setCodec (codec streamType : Value) : Edit Unit :=
  match streamType with
  | .null => write "c" codec
  | streamType => do write ("c:" ++ (← Action.ofExcept streamType.spelled)) codec

/-- Adds a metadata entry. A missing value is spelled out. -/
def addMetadata (key value : Value) : Edit Unit := do
  let key ← Action.ofExcept key.spelled
  let text := (← withTokens (normalize value)).getD "None"
  addAgain "metadata" (.text (key ++ "=" ++ text))

/-- Adds a stream to take. -/
def addMap (spec : Value) : Edit Unit := addAgain "map" spec

/-- Where to start and where to stop. -/
def setSearch (start stop : Value) : Edit Unit := do
  write "ss" start
  write "to" stop

/-- Where to start and for how long. -/
def setSearchFor (start length : Value) : Edit Unit := do
  write "ss" start
  write "t" length

/-- Repeats the input. -/
def setLoop : Edit Unit := write "loop" (.int 1)

/-- A named frame size, or a width and a height. -/
def setSize (width height : Value) : Edit Unit :=
  if width.isMemberOf .videoSize then write "s" width
  else do
    let width ← Action.ofExcept width.spelled
    let height ← Action.ofExcept height.spelled
    write "s" (.text (width ++ "x" ++ height))

/-- The output path. -/
def setOutput (path : Value) : Edit Unit := do
  if !path.isTruthy then throw (.contract .emptyOutput)
  write outputKey path

/-- Lists streams: all, or those of a selection. -/
def showStreams (selection : Value) : Edit Unit := do
  write "show_streams" .null
  match selection with
  | .null => return
  | selection => write "select_streams" selection

end ArgumentList

end MediaCommand
