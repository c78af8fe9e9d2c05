import MediaCommand.Session
import MediaCommand.Probe.Result

/-!
# Commands

Commands are made with the programs of the settings in use, worked on through their argument
lists, and handed to a runner as a command line.
-/

namespace MediaCommand

open Session

namespace Command

def enter (kind : CommandKind) (binary : String) : Step (Ref .command) := do
  let s ← get
  set { s with commands := s.commands.add ⟨kind, binary, .empty⟩ }
  return s.commands.next

def read (ref : Ref .command) : Step Command := do requireObject ((← get).commands.get? ref)

/-- Runs an operation on the arguments of a command. -/
def edit {α : Type} (ref : Ref .command) (edit : ArgumentList.Edit α) : Step α :=
  ArgumentList.run (.ofCommand ref) edit

/-- A command of the encoder that overwrites its output, unless told otherwise. -/
def encoder (overwrite : Value) : Step (Ref .command) := do
  let ref ← enter .ffmpeg (← configure Configuration.settings).ffmpeg
  if overwrite.isTruthy then edit ref (ArgumentList.setOverwrite (.bool true))
  return ref

/-- A command of the prober. -/
def prober : Step (Ref .command) := do
  enter .ffprobe (← configure Configuration.settings).ffprobe

/-- A query about the encoder. -/
def encoderHelp : Step (Ref .command) := do
  enter .help (← configure Configuration.settings).ffmpeg

/-- A query about the prober. -/
def proberHelp : Step (Ref .command) := do
  enter .help (← configure Configuration.settings).ffprobe

/-- What a filter option is made from. -/
def filterSetOf : List GraphItem → Work (Ref .filterSet)
  | [.filterSet ref] => return ref
  | items => do
    let ref ← FilterSet.enter (.fresh FilterSet.simpleOption)
    let _ ← FilterSet.start ref items
    return ref

/-- Sets the filter option from a filter set, or from items as a simple one. Filters without a text
set nothing. -/
def setFilters (ref : Ref .command) (items : List GraphItem) : Step Unit := do
  let filters ← work (filterSetOf items)
  let text ← work (FilterSet.renderNow filters)
  if text ≠ "" then
    let option := (← work (FilterSet.read filters)).option
    edit ref (ArgumentList.write option (.text text))

/-- Runs a command line. -/
def runLine (runner : Runner) (line : List String) (timeout : Value) : Step RunResult := do
  match runner with
  | .executor ref => running (Executor.run ref line timeout)
  | .fresh => running do Executor.run (← Executor.enter none) line timeout
  | .recorder ref =>
    let recorder ← Recorder.read ref
    let told := { recorder with calls := recorder.calls ++ [(line, timeout)] }
    modify fun s => { s with recorders := s.recorders.put ref told }
    Action.ofExcept recorder.answer

/-- The time limit of a run: the one given, or that of the settings in use. -/
def limit (timeout : Value) : Step Value := do
  match timeout with
  | .null => return (← configure Configuration.settings).timeout
  | timeout => return timeout

/-- Runs a command. A checked run fails when the program does. -/
def run (ref : Ref .command) (runner : Runner) (timeout check : Value) : Step RunResult := do
  let timeout ← limit timeout
  let command ← read ref
  let result ← runLine runner command.commandLine timeout
  if check.isTruthy && result.exitCode ≠ 0 then
    throw (.commandFailed command.binary result.exitCode)
  return result

/-- Writes to a path and runs the command. -/
def runTo (ref : Ref .command) (path : Value) (runner : Runner) (timeout : Value) : Step Value := do
  edit ref (ArgumentList.setOutput path)
  let _ ← run ref runner timeout (.bool true)
  log .info "ffmpeg output written to %s" [path]
  return path

/-- The output of a query. -/
def output (ref : Ref .command) (runner : Runner) (timeout : Value) : Step String :=
  return (← run ref runner timeout (.bool true)).stdout

/-- What a probe that exited with a code other than zero says. -/
def probeError (result : RunResult) : Except Failure String := do
  let said := String.ofList (trim result.stderr.toList)
  if said ≠ "" then return said
  else return "ffprobe exited with code " ++ (← (Value.int result.exitCode).spelled)

/-- Runs a probe with its output in JSON and reads it, with at most `depth` containers open at a
time. -/
def probe (depth : Nat) (ref : Ref .command) (runner : Runner) (timeout : Value) :
    Step ProbeResult := do
  edit ref (ArgumentList.set .printFormat (.text "json"))
  let result ← run ref runner timeout (.bool false)
  if result.exitCode ≠ 0 then return .failed (← Action.ofExcept (probeError result))
  Action.ofExcept (ProbeResult.ofOutput depth (.text result.stdout))

end Command

/-! ## Queries -/

/-- The limit of a probe in seconds, when the caller gives none. -/
def defaultProbeTimeout : Int := 30

/-- Probes a source. A program that cannot be started is a failed probe. -/
def probeSource (depth : Nat) (path timeout : Value) (runner : Runner) : Step ProbeResult := do
  let ref ← Command.prober
  Command.edit ref do
    ArgumentList.write "v" (.text "quiet")
    ArgumentList.flag .showFormat
    ArgumentList.write "show_streams" .null
    ArgumentList.addInputs [path]
  let binary := (← Command.read ref).binary
  try Command.probe depth ref runner timeout
  catch
    | .launch .notFound _ => return .failed (binary ++ " not found on system")
    | .launch .notPermitted message | .launch .system message => return .failed message
    | failure => throw failure

/-- The container formats of the encoder. The first query that succeeds is kept. -/
def supportedFormats (runner : Runner) : Step (List ContainerFormat) := do
  match (← get).formats with
  | some formats => return formats
  | none =>
    let ref ← Command.encoderHelp
    Command.edit ref do
      ArgumentList.flag .hideBanner
      ArgumentList.flag .formats
    let formats := ContainerFormat.ofListing (← Command.output ref runner .null)
    modify ({ · with formats := some formats })
    log .debug "Loaded %d supported formats" [.int formats.length]
    return formats

/-- Forgets the container formats. -/
def resetFormats : Step Unit := modify ({ · with formats := none })

end MediaCommand
