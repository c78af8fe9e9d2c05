import MediaCommand.Settings
import MediaCommand.Settings.TimeLimit
import MediaCommand.Text.Case

/-!
# Settings from variables

The reader of sessions without a settings file. It takes fields from the caller and, without regard
to case, from the environment. Nothing is stated about this reader alone: it is the one that
sessions run with in tests.
-/

namespace MediaCommand

namespace Settings

/-- The names of the fields. -/
def fieldNames : List String := ["ffmpeg_bin", "ffprobe_bin", "timeout", "log_level"]

/-- What a variable's name starts with, in small letters. -/
def variableMark : String := "ffmpeg_composer_"

/-- A text, or what is wrong with it. A constant counts as what it stands for. -/
def readText : Value → Except String String
  | .text s => .ok s
  | .member _ worth => .ok worth.spelling
  | _ => .error "string_type"

/-- The problem of a reading under its field. -/
private def problem {α : Type} (field : String) : Except String α → List (String × String)
  | .ok _ => []
  | .error kind => [(field, kind)]

/-- The settings that the given fields make, with defaults for the others. All problems are
reported together, those of unknown fields last. -/
def ofFields (fields : Keyed String Value) : Except (List (String × String)) Settings :=
  let field (name : String) (default : Value) := (Keyed.get? fields name).getD default
  let ffmpeg := readText (field "ffmpeg_bin" (.text "ffmpeg"))
  let ffprobe := readText (field "ffprobe_bin" (.text "ffprobe"))
  let timeout := TimeLimit.read (field "timeout" .null)
  let logLevel := readText (field "log_level" (.text "INFO"))
  let unknown := fields.filter fun entry => !fieldNames.contains entry.1
  match ffmpeg, ffprobe, timeout, logLevel, unknown with
  | .ok ffmpeg, .ok ffprobe, .ok timeout, .ok logLevel, [] =>
    .ok ⟨ffmpeg, ffprobe, timeout, logLevel⟩
  | ffmpeg, ffprobe, timeout, logLevel, unknown =>
    .error (problem "ffmpeg_bin" ffmpeg ++ problem "ffprobe_bin" ffprobe
      ++ problem "timeout" timeout ++ problem "log_level" logLevel
      ++ unknown.map fun entry => (entry.1, "extra_forbidden"))

/-- The fields that the environment gives. Of two variables that differ in case only, the later
one counts. -/
def ofEnvironment (environment : Keyed String String) : Keyed String Value :=
  fieldNames.filterMap fun name =>
    (environment.reverse.find? fun entry =>
      decide (lowercase entry.1 = variableMark ++ name)).map fun entry => (name, Value.text entry.2)

/-- The field that a given name means: names of fields are known without regard to case. -/
def fieldOf (name : String) : String :=
  if fieldNames.contains (lowercase name) then lowercase name else name

/-- Fields from the environment, where the caller does not give them. Of two given names for a
field, the later one counts. -/
def fromVariables : SettingsReader := fun source =>
  ofFields (source.given.foldl (fun fields entry => Keyed.put fields (fieldOf entry.1) entry.2)
    (ofEnvironment source.environment))

end Settings

end MediaCommand
