import MediaCommand.Log.Template
import MediaCommand.Text.Case

/-!
# The journal

Messages are recorded when their level reaches that of the package, or the warning level as long
as none is set. Once safe logging is installed, line breaks in text arguments are written out.
-/

namespace MediaCommand

inductive LogLevel where
  | debug
  | info
  | warning
  | error
  | critical
  deriving DecidableEq, Repr

namespace LogLevel

def all : List LogLevel := [.debug, .info, .warning, .error, .critical]

def name : LogLevel → String
  | .debug => "DEBUG"
  | .info => "INFO"
  | .warning => "WARNING"
  | .error => "ERROR"
  | .critical => "CRITICAL"

def rank : LogLevel → Nat
  | .debug => 10
  | .info => 20
  | .warning => 30
  | .error => 40
  | .critical => 50

/-- The level that a text names in capitals. -/
def ofName? (name : String) : Option LogLevel := all.find? fun level => decide (level.name = name)

/-- The level that a text names, in letters of either case. -/
def parse? (text : String) : Option LogLevel :=
  ofName? (String.ofList (text.toList.map latinCapital))

end LogLevel

/-- The level of the package, whether arguments are sanitized, and the messages so far. -/
structure Journal where
  level : Option LogLevel
  safe : Bool
  records : List (LogLevel × String)

namespace Journal

def initial : Journal := ⟨none, false, []⟩

/-- The level from which messages are recorded. -/
def threshold (journal : Journal) : LogLevel := journal.level.getD .warning

def records? (journal : Journal) (level : LogLevel) : Bool :=
  decide (journal.threshold.rank ≤ level.rank)

/-- The message of a template under safe logging. -/
def safeMessage (template : String) (arguments : List Value) : Except Failure String :=
  Template.fill template (LogArguments.ofList arguments).sanitized

/-- Records a message when its level is reached. -/
def log (level : LogLevel) (template : String) (arguments : List Value) : Action Journal Unit := do
  let journal ← get
  if journal.records? level then
    let message ← Action.ofExcept <|
      if journal.safe then safeMessage template arguments
      else Template.fill template (LogArguments.ofList arguments)
    set { journal with records := journal.records ++ [(level, message)] }

/-- Sets the level of the package. A text that names none is reported and counts as `INFO`. -/
def setLevel (level : Value) : Action Journal Unit := do
  match level with
  | .text text =>
    match LogLevel.parse? text with
    | some level => modify ({ · with level := some level })
    | none =>
      log .warning "Invalid log level '%s', using INFO" [.text text]
      modify ({ · with level := some .info })
  | level => throw (.noAttribute level.kind "upper")

def installSafeLogging : Action Journal Unit := modify ({ · with safe := true })

/-- The name of the package's level. -/
def levelName (journal : Journal) : String :=
  match journal.level with
  | some level => level.name
  | none => "NOTSET"

end Journal

end MediaCommand
