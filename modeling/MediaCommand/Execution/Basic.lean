import MediaCommand.Log.Journal
import MediaCommand.Progress.Line
import MediaCommand.Store

/-!
# Running programs

What a program run consists of: the result, the events that listeners are told, the child
processes, and the plans by which the outside world answers.
-/

namespace MediaCommand

/-- What a program left behind. -/
structure RunResult where
  stdout : String
  stderr : String
  exitCode : Int
  deriving DecidableEq, Repr

def RunResult.isOk (result : RunResult) : Bool := result.exitCode == 0

/-- What listeners are told about a run. -/
inductive RunEvent where
  | started
  | progress (progress : Progress)
  | completed (result : RunResult)
  | failed (result : RunResult)
  | cancelled
  deriving DecidableEq

/-- The name of an event. -/
def RunEvent.name : RunEvent → String
  | .started => "started"
  | .progress _ => "progress"
  | .completed _ => "completed"
  | .failed _ => "failed"
  | .cancelled => "cancelled"

/-- A listener, by its number. Each time it is told an event it decides, from all that it has been
told so far, whether to cancel the run. -/
structure Listener where
  number : Nat
  cancels : List RunEvent → Bool

/-- Decides to cancel on every event of a name, if one is given. -/
def Listener.cancelsOn (name : Option String) (told : List RunEvent) : Bool :=
  decide (name.isSome ∧ told.getLast?.map RunEvent.name = name)

/-- How the outside world answers the start of a program. -/
structure ChildPlan where
  stdout : List String
  stderr : List String
  exitCode : Int
  /-- Whether waiting with a limit ends at the limit. -/
  hangs : Bool
  /-- Whether the child refuses to be terminated. -/
  refusesTerminate : Bool
  /-- Why the program does not start at all, if it does not. -/
  fault : Option (LaunchFault × String)
  deriving DecidableEq, Repr

/-- A started child, with the signals it has got. -/
structure Child where
  plan : ChildPlan
  terminations : Nat
  kills : Nat
  deriving DecidableEq, Repr

def Child.ofPlan (plan : ChildPlan) : Child := ⟨plan, 0, 0⟩

def Child.terminated (child : Child) : Child :=
  { child with terminations := child.terminations + 1 }

def Child.killed (child : Child) : Child := { child with kills := child.kills + 1 }

/-- Runs programs one after the other and tells its listeners. `current` is the child started
last. -/
structure Executor where
  totalDuration : Option String
  listeners : List Listener
  cancelled : Bool
  current : Option (Ref .child)

def Executor.fresh (totalDuration : Option String) : Executor := ⟨totalDuration, [], false, none⟩

/-- Stands in for an executor: it answers every run alike and keeps the calls. -/
structure Recorder where
  reply : RunResult
  fault : Option (LaunchFault × String)
  calls : List (List String × Value)

/-- The outside world and what has been observed of it. -/
structure Runtime where
  executors : Store .executor Executor
  children : Store .child Child
  plans : List ChildPlan
  journal : Journal
  /-- Listener numbers with the events they were told. -/
  events : List (Nat × RunEvent)
  /-- The command lines of all attempts to start a program. -/
  launches : List (List String)
  listenerCount : Nat

def Runtime.initial : Runtime := ⟨.empty, .empty, [], .initial, [], [], 0⟩

/-- What a listener has been told so far. -/
def Runtime.told (world : Runtime) (number : Nat) : List RunEvent :=
  (world.events.filter fun entry => decide (entry.1 = number)).map (·.2)

/-- An operation on the outside world. -/
abbrev Running (α : Type) := Action Runtime α

end MediaCommand
