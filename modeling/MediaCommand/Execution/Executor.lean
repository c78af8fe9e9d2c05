import MediaCommand.Execution.Basic
import MediaCommand.Graph.Workspace

/-!
# The executor

A run starts the program, reads its two outputs line by line, waits for its end within the time
limit, and tells the listeners. A listener may cancel; cancelling signals the child started last
and makes every later run end at once.
-/

namespace MediaCommand

namespace Executor

/-- The exit code of a run that was cancelled before it began. -/
def cancelledCode : Int := -15

/-- The exit code of a run that reached its time limit. -/
def timeoutCode : Int := -9

/-- The line that a run which reached its time limit adds to its errors. -/
def timeoutLine : String := "Process timed out"

/-- How many of the last error lines are logged when a program fails. -/
def tailLength : Nat := 20

/-- The number of characters of a logged error line. -/
def lineLimit : Int := 120

def enter (totalDuration : Option String) : Running (Ref .executor) := do
  let world ← get
  set { world with executors := world.executors.add (fresh totalDuration) }
  return world.executors.next

def read (ref : Ref .executor) : Running Executor := do
  requireObject ((← get).executors.get? ref)

/-- Changes an executor. -/
def change (ref : Ref .executor) (f : Executor → Executor) : Running Unit := do
  let executor ← read ref
  modify fun world => { world with executors := world.executors.put ref (f executor) }

/-- Changes a child. -/
def changeChild (ref : Ref .child) (f : Child → Child) : Running Unit := do
  let child ← requireObject ((← get).children.get? ref)
  modify fun world => { world with children := world.children.put ref (f child) }

/-- Records a message. -/
def log (level : LogLevel) (template : String) (arguments : List Value) : Running Unit :=
  Action.within Runtime.journal (fun journal world => { world with journal })
    (Journal.log level template arguments)

/-- Terminates and kills a child. A child that refuses to be terminated is not killed. -/
def stop (ref : Ref .child) : Running Unit := do
  let child ← requireObject ((← get).children.get? ref)
  changeChild ref Child.terminated
  if !child.plan.refusesTerminate then changeChild ref Child.killed

/-- Asks for cancellation: the child started last is signalled. -/
def cancel (ref : Ref .executor) : Running Unit := do
  change ref ({ · with cancelled := true })
  match (← read ref).current with
  | some child => stop child
  | none => return

/-- Registers a listener by what it decides. Listeners are numbered in order of registration. -/
def register (ref : Ref .executor) (cancels : List RunEvent → Bool) : Running Unit := do
  let number := (← get).listenerCount
  change ref fun executor =>
    { executor with listeners := executor.listeners ++ [⟨number, cancels⟩] }
  modify ({ · with listenerCount := number + 1 })

/-- Registers a listener that cancels on every event of a name, if one is given. -/
def listen (ref : Ref .executor) (cancelOn : Option String) : Running Unit :=
  register ref (Listener.cancelsOn cancelOn)

/-- Tells an event to listeners in turn. -/
def tell (ref : Ref .executor) (event : RunEvent) : List Listener → Running Unit
  | [] => return
  | listener :: rest => do
    modify fun world => { world with events := world.events ++ [(listener.number, event)] }
    if listener.cancels ((← get).told listener.number) then cancel ref
    tell ref event rest

/-- Tells an event to all listeners. -/
def emit (ref : Ref .executor) (event : RunEvent) : Running Unit := do
  tell ref event (← read ref).listeners

/-- Adds a plan for the next start of a program that has none yet. -/
def plan (plan : ChildPlan) : Running Unit :=
  modify fun world => { world with plans := world.plans ++ [plan] }

/-- Starts a program as the next plan says. -/
def launch (command : List String) : Running (Ref .child) := do
  modify fun world => { world with launches := world.launches ++ [command] }
  let world ← get
  match world.plans with
  | [] => throw (.launch .notFound "no process planned")
  | plan :: plans =>
    MonadState.set { world with plans }
    match plan.fault with
    | some (fault, message) => throw (.launch fault message)
    | none =>
      modify fun world => { world with children := world.children.add (.ofPlan plan) }
      return world.children.next

/-- Whether a line reports progress. -/
def reportsProgress (line : String) : Bool :=
  (List.range line.length).any fun start =>
    "frame=".toList.isPrefixOf (line.toList.drop start)

/-- A line reports progress exactly when the key of the frame occurs in it. -/
theorem reportsProgress_iff {line : String} :
    reportsProgress line = true ↔ "frame=".toList <:+: line.toList := by
  simp only [reportsProgress, List.any_eq_true, List.mem_range, List.isPrefixOf_iff_prefix]
  constructor
  · rintro ⟨start, -, here⟩
    exact here.isInfix.trans (List.drop_suffix start line.toList).isInfix
  · rintro ⟨front, back, split⟩
    refine ⟨front.length, ?_, ?_⟩
    · have lengths := congrArg List.length split
      simp only [List.length_append, String.length_toList] at lengths
      have mark : "frame=".length = 6 := rfl
      omega
    · rw [← split, List.append_assoc, List.drop_left]
      exact List.prefix_append _ _

/-- Reads error lines in turn and tells the progress they report. Reading ends at the first line
whose progress cannot be read; that line is still kept. -/
def readErrors (ref : Ref .executor) : List String → Running (List String)
  | [] => return []
  | line :: rest => do
    let kept := dropLineFeeds line
    if reportsProgress line then
      match Progress.ofLine line (← read ref).totalDuration with
      | .ok progress => emit ref (.progress progress)
      | .error _ => return [kept]
    return kept :: (← readErrors ref rest)

/-- Waits for the child. With a limit, one that hangs is killed. The result tells whether the
limit was reached. -/
def wait (child : Ref .child) (plan : ChildPlan) (timeout : Value) : Running Bool := do
  match timeout with
  | .null => return false
  | _ =>
    if plan.hangs then
      changeChild child Child.killed
      return true
    else return false

/-- Logs the failure of a program with its last error lines. -/
def logFailure (program : String) (errors : List String) (exitCode : Int) : Running Unit := do
  log .error "%s exited with code %d" [.text program, .int exitCode]
  logLines (errors.drop (errors.length - tailLength))
where
  logLines : List String → Running Unit
    | [] => return
    | line :: rest => do
      log .error "%s" [.text (String.ofList (truncated lineLimit line.toList))]
      logLines rest

/-- Tells how a run ended. -/
def conclude (ref : Ref .executor) (program : String) (errors : List String)
    (result : RunResult) : Running Unit := do
  if (← read ref).cancelled then emit ref .cancelled
  else if result.exitCode = 0 then emit ref (.completed result)
  else
    logFailure program errors result.exitCode
    emit ref (.failed result)

/-- Sees a child through to its end: reads its outputs, waits for it and tells how it ended. -/
def supervise (ref : Ref .executor) (program : String) (child : Ref .child) (timeout : Value) :
    Running RunResult := do
  change ref ({ · with current := some child })
  let plan := (← requireObject ((← get).children.get? child)).plan
  let errors ← readErrors ref plan.stderr
  let expired ← wait child plan timeout
  let errors := if expired then errors ++ [timeoutLine] else errors
  let result : RunResult :=
    ⟨"\n".intercalate (plan.stdout.map dropLineFeeds), "\n".intercalate errors,
      if expired then timeoutCode else plan.exitCode⟩
  conclude ref program errors result
  return result

/-- Runs a command within a time limit; without a limit `timeout` is `null`. -/
def run (ref : Ref .executor) (command : List String) (timeout : Value) : Running RunResult := do
  match command with
  | [] => throw .emptyCommand
  | program :: _ =>
    if (← read ref).cancelled then
      emit ref .cancelled
      return ⟨"", "", cancelledCode⟩
    log .info "%s command: %s" [.text program, .text (" ".intercalate command)]
    emit ref .started
    let child ← launch command
    let result ← supervise ref program child timeout
    log .info "%s execution time %ss" [.text program, .text "0.000"]
    return result

end Executor

namespace Recorder

/-- Answers a run. -/
def answer (recorder : Recorder) : Except Failure RunResult :=
  match recorder.fault with
  | some (fault, message) => .error (.launch fault message)
  | none => .ok recorder.reply

end Recorder

end MediaCommand
