import MediaCommand.Command.Setting
import MediaCommand.Execution.Executor
import MediaCommand.Graph.Workspace
import MediaCommand.Probe.FormatList
import MediaCommand.Settings

/-!
# Sessions

A session is everything that lasts from one operation to the next: the workspace, commands and
argument lists, the settings in use, the known container formats and the outside world.
-/

namespace MediaCommand

/-- The kinds of commands. -/
inductive CommandKind where
  | base
  | input
  | ffmpeg
  | ffprobe
  | help
  deriving DecidableEq, Repr

def CommandKind.all : List CommandKind := [.base, .input, .ffmpeg, .ffprobe, .help]

def CommandKind.name : CommandKind → String
  | .base => "BaseCommand"
  | .input => "InputCommand"
  | .ffmpeg => "FFmpegCommand"
  | .ffprobe => "FFprobeCommand"
  | .help => "HelpCommand"

/-- A command of a program. -/
structure Command where
  kind : CommandKind
  binary : String
  arguments : ArgumentList
  deriving DecidableEq, Repr

namespace Command

/-- The command line. -/
def commandLine (command : Command) : List String := command.arguments.render [command.binary]

def text (command : Command) : String := " ".intercalate command.commandLine

/-- The command without its program, for messages. -/
def literal (command : Command) : String :=
  "<" ++ command.kind.name ++ " " ++ command.arguments.text ++ ">"

end Command

structure Session where
  workspace : Workspace
  lists : Store .argumentList ArgumentList
  commands : Store .command Command
  recorders : Store .recorder Recorder
  configuration : Configuration
  formats : Option (List ContainerFormat)
  runtime : Runtime
  /-- How many catalogues and classes have been declared. -/
  declared : Nat

/-- An operation in a session. -/
abbrev Step (α : Type) := Action Session α

/-- An argument list: one of its own, or that of a command. -/
inductive ListRef where
  | own (ref : Ref .argumentList)
  | ofCommand (ref : Ref .command)
  deriving DecidableEq, Repr

/-- What runs a command: an executor, a recorder in its place, or an executor made for the run. -/
inductive Runner where
  | executor (ref : Ref .executor)
  | recorder (ref : Ref .recorder)
  | fresh
  deriving DecidableEq, Repr

namespace Session

/-- A new session, with its reader of settings. -/
def initial (reader : SettingsReader) : Session :=
  ⟨.initial, .empty, .empty, .empty, .initial reader, none, .initial, 0⟩

/-- Runs an operation of the workspace. -/
def work {α : Type} (action : Work α) : Step α :=
  Action.within Session.workspace (fun workspace s => { s with workspace }) action

/-- Runs an operation of the outside world. -/
def running {α : Type} (action : Running α) : Step α :=
  Action.within Session.runtime (fun runtime s => { s with runtime }) action

/-- Runs an operation on the configuration. -/
def configure {α : Type} (action : Action Configuration α) : Step α :=
  Action.within Session.configuration (fun configuration s => { s with configuration }) action

/-- Runs a lookup of tokens. -/
def withTokens {α : Type} (action : Action Tokens α) : Step α :=
  work (Workspace.withTokens action)

/-- Records a message. -/
def log (level : LogLevel) (template : String) (arguments : List Value) : Step Unit :=
  running (Executor.log level template arguments)

/-- Runs an operation on the journal. -/
def journal {α : Type} (action : Action Journal α) : Step α :=
  running (Action.within Runtime.journal (fun journal world => { world with journal }) action)

/-- A serial for a declaration. -/
def nextSerial : Step Nat := do
  let s ← get
  set { s with declared := s.declared + 1 }
  return s.declared + 1

/-- Installs safe logging and sets the level of some settings, or of those in use. -/
def configureLogging (given : Option Settings) : Step Unit := do
  let settings ← match given with
    | some settings => pure settings
    | none => configure Configuration.settings
  journal Journal.installSafeLogging
  journal (Journal.setLevel (.text settings.logLevel))

end Session

open Session

/-- Adds a recorder that answers every run alike. -/
def Recorder.enter (reply : RunResult) (fault : Option (LaunchFault × String)) :
    Step (Ref .recorder) := do
  let s ← get
  set { s with recorders := s.recorders.add ⟨reply, fault, []⟩ }
  return s.recorders.next

def Recorder.read (ref : Ref .recorder) : Step Recorder := do
  requireObject ((← get).recorders.get? ref)

/-! ## Argument lists -/

namespace ArgumentList

def enter : Step (Ref .argumentList) := do
  let s ← get
  MonadState.set { s with lists := s.lists.add empty }
  return s.lists.next

def read : ListRef → Step ArgumentList
  | .own ref => do requireObject ((← get).lists.get? ref)
  | .ofCommand ref => do return (← requireObject ((← get).commands.get? ref)).arguments

/-- The session after a list has been replaced. -/
def write? (ref : ListRef) (list : ArgumentList) (s : Session) : Session :=
  match ref with
  | .own ref => { s with lists := s.lists.put ref list }
  | .ofCommand ref => match s.commands.get? ref with
    | some command => { s with commands := s.commands.put ref { command with arguments := list } }
    | none => s

/-- Runs an operation on a list. -/
def run {α : Type} (ref : ListRef) (edit : Edit α) : Step α := do
  let list ← read ref
  Action.within (fun s => ⟨s.workspace.tokens, list⟩)
    (fun desk s => write? ref desk.list
      { s with workspace := { s.workspace with tokens := desk.tokens } }) edit

end ArgumentList

end MediaCommand
