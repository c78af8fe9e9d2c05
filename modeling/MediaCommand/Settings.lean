import MediaCommand.Failure
import MediaCommand.Keyed

/-!
# Settings

Where the programs are, how long they may run and how much is logged. Settings are read the first
time they are needed, and kept until they are dropped. How they are read and validated is up to a
`SettingsReader`; settings that do not validate are not kept.
-/

namespace MediaCommand

structure Settings where
  ffmpeg : String
  ffprobe : String
  /-- Seconds before a running program is killed; `null` is no limit. -/
  timeout : Value
  logLevel : String

/-- What settings are read from: the variables of the environment, the text of the settings file if
there is one, and the fields that the caller gives. -/
structure SettingsSource where
  environment : Keyed String String
  file : Option String
  given : Keyed String Value

/-- Reads settings, or tells the fields that do not validate and what is wrong with each. -/
abbrev SettingsReader := SettingsSource → Except (List (String × String)) Settings

/-- How settings are read, what from, and the settings in use. -/
structure Configuration where
  reader : SettingsReader
  environment : Keyed String String
  file : Option String
  current : Option Settings

namespace Configuration

def initial (reader : SettingsReader) : Configuration := ⟨reader, [], none, none⟩

def setVariable (name value : String) : Action Configuration Unit :=
  modify fun c => { c with environment := c.environment.put name value }

def dropVariable (name : String) : Action Configuration Unit :=
  modify fun c => { c with environment := c.environment.erase name }

/-- Writes the settings file, or removes it. -/
def setFile (text : Option String) : Action Configuration Unit :=
  modify ({ · with file := text })

/-- The settings that can be read now, with some given fields. -/
def read (configuration : Configuration) (given : Keyed String Value) : Except Failure Settings :=
  match configuration.reader ⟨configuration.environment, configuration.file, given⟩ with
  | .ok settings => .ok settings
  | .error problems => .error (.settings problems)

/-- Settings made with some given fields. -/
def make (given : List (String × Value)) : Action Configuration Settings := do
  Action.ofExcept ((← get).read given)

/-- The settings in use. The first call reads them. -/
def settings : Action Configuration Settings := do
  let configuration ← get
  match configuration.current with
  | some settings => return settings
  | none =>
    let settings ← Action.ofExcept (configuration.read [])
    set { configuration with current := some settings }
    return settings

/-- Drops the settings in use. -/
def reset : Action Configuration Unit := modify ({ · with current := none })

end Configuration

end MediaCommand
