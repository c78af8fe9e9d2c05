import MediaCommand.Proofs.Execution.Course

/-!
# The protocol of events

A complete run tells that it started, then progress, then one event that ends it; a run of an
executor that was cancelled before tells that alone. `run_complete_iff` says of every run that calls
can lead to, whether it returns or fails, when its events are complete: exactly when the executor
was cancelled or the program could be started. A program that cannot be started leaves its run with
the first event only. Listeners may cancel on any event.
-/

namespace MediaCommand

/-- The events of a run that is told completely, on an executor that was cancelled before or
not. -/
def Complete (cancelled : Bool) (events : List RunEvent) : Prop :=
  if cancelled then events = [.cancelled]
  else ∃ (reports : List Progress) (last : RunEvent),
    events = .started :: (reports.map RunEvent.progress ++ [last]) ∧ last.IsTerminal

namespace Executor

variable {ref : Ref .executor} {world : Runtime}

/-- What a run leaves in the world: the events it told, and linked executors. -/
structure RanTo (listeners : List Listener) (events : List RunEvent) (before after : Runtime) :
    Prop where
  linked : after.Linked
  events : after.events = before.events ++ announced listeners events

theorem isTerminal_closing (cancelled : Bool) (result : RunResult) :
    (closing cancelled result).IsTerminal := by
  unfold closing
  split
  · trivial
  · split <;> trivial

/-- The events of a planned run are complete. -/
theorem complete_course (world : Runtime) (executor : Executor) (plan : ChildPlan)
    (timeout : Value) : Complete false (world.course executor plan timeout) :=
  ⟨_, _, rfl, isTerminal_closing _ _⟩

/-- The events of a run, whether they are complete, and what they are when not. -/
theorem run_events (linked : world.Linked) {executor : Executor}
    (present : world.executors.get? ref = some executor) {command : List String}
    (nonempty : command ≠ []) (timeout : Value) :
    ∃ events, RanTo executor.listeners events world ((run ref command timeout).after world) ∧
      (Complete executor.cancelled events ↔ executor.cancelled = true ∨ world.Starts) ∧
      (¬ Complete executor.cancelled events → events = [.started]) := by
  cases cancelled : executor.cancelled with
  | true =>
    obtain ⟨after, ran, said⟩ := run_cancelled linked present cancelled nonempty timeout
    rw [Action.after_of_ok ran]
    refine ⟨[.cancelled], ⟨said.linked, said.events⟩, ?_, ?_⟩
    · simp [Complete]
    · exact fun incomplete => absurd rfl incomplete
  | false =>
    by_cases starts : world.Starts
    · obtain ⟨plan, next, sound⟩ := starts
      obtain ⟨plans, planned⟩ := List.head?_eq_some_iff.1 next
      obtain ⟨after, returned, ran⟩ :=
        run_planned linked present cancelled planned sound nonempty timeout
      have complete := complete_course world executor plan timeout
      rw [Action.after_of_ok returned]
      exact ⟨_, ⟨ran.linked, ran.events⟩, iff_of_true complete (.inr ⟨plan, next, sound⟩),
        absurd complete⟩
    · obtain ⟨failure, mid, after, failed, said, executors, children, events⟩ :=
        run_stuck linked present cancelled starts nonempty timeout
      rw [Action.after_of_error failed]
      refine ⟨[.started], ⟨?_, events.trans said.events⟩, ?_, fun _ => rfl⟩
      · rw [Runtime.Linked, executors, children]
        exact said.linked
      · simp [Complete, starts]

end Executor

/-! ## Worlds that calls lead to -/

/-- A call on executors or the world they run in. `elsewhere` is anything else that goes on. -/
inductive ExecutorCall where
  | enter (totalDuration : Option String)
  | register (ref : Ref .executor) (cancels : List RunEvent → Bool)
  | cancel (ref : Ref .executor)
  | prepare (plan : ChildPlan)
  | run (ref : Ref .executor) (command : List String) (timeout : Value)
  | elsewhere (action : Running Unit) (apart : ∀ world,
      (action.after world).executors = world.executors ∧
        (action.after world).children = world.children)

namespace ExecutorCall

/-- Makes a call. -/
def perform : ExecutorCall → Running Unit
  | .enter totalDuration => do let _ ← Executor.enter totalDuration
  | .register ref cancels => Executor.register ref cancels
  | .cancel ref => Executor.cancel ref
  | .prepare plan => Executor.plan plan
  | .run ref command timeout => do let _ ← Executor.run ref command timeout
  | .elsewhere action _ => action

/-- The world after calls in turn, those that fail included. -/
def afterCalls (calls : List ExecutorCall) (world : Runtime) : Runtime :=
  calls.foldl (fun world call => call.perform.after world) world

end ExecutorCall

namespace Executor

variable {ref : Ref .executor} {world : Runtime}

theorem read_absent (absent : world.executors.get? ref = none) :
    read ref world = .error .noObject world :=
  Action.require_of_none absent

theorem change_absent (absent : world.executors.get? ref = none) (f : Executor → Executor) :
    change ref f world = .error .noObject world :=
  Action.bind_of_error (read_absent absent)

theorem linked_enter (linked : world.Linked) (totalDuration : Option String) :
    ((enter totalDuration).after world).Linked := by
  intro other executor child found started
  have added : (world.executors.cells ++ [fresh totalDuration])[other.index]? = some executor :=
    found
  rw [List.getElem?_append] at added
  split at added
  · exact linked other executor child added started
  · rw [List.getElem?_singleton] at added
    split at added
    · cases added
      cases started
    · cases added

theorem linked_register (linked : world.Linked) (ref : Ref .executor)
    (cancels : List RunEvent → Bool) : ((register ref cancels).after world).Linked := by
  rw [register, Action.after_congr (Action.get_bind_apply _ world)]
  cases found : world.executors.get? ref with
  | none =>
    rw [Action.after_bind_of_error (change_absent found _)]
    exact linked
  | some executor =>
    rw [Action.after_bind_of_ok (change_apply found _)]
    exact linked_put linked found fun child => linked ref executor child found

theorem linked_cancel (linked : world.Linked) (ref : Ref .executor) :
    ((cancel ref).after world).Linked := by
  cases found : world.executors.get? ref with
  | none =>
    rw [cancel, Action.after_bind_of_error (change_absent found _)]
    exact linked
  | some executor =>
    obtain ⟨after, done, signals⟩ := signals_cancel linked found
    rw [Action.after_of_ok done]
    exact signals.linked

theorem linked_run (linked : world.Linked) (ref : Ref .executor) (command : List String)
    (timeout : Value) : ((run ref command timeout).after world).Linked := by
  by_cases empty : command = []
  · subst empty
    exact linked
  cases found : world.executors.get? ref with
  | none =>
    obtain ⟨program, rest, rfl⟩ := List.exists_cons_of_ne_nil empty
    have failed : run ref (program :: rest) timeout world = .error .noObject world :=
      Action.bind_of_error (read_absent found)
    rw [Action.after_of_error failed]
    exact linked
  | some executor =>
    obtain ⟨events, ran, -, -⟩ := run_events linked found empty timeout
    exact ran.linked

end Executor

namespace ExecutorCall

theorem linked_perform {world : Runtime} (linked : world.Linked) (call : ExecutorCall) :
    (call.perform.after world).Linked := by
  cases call with
  | enter totalDuration =>
    rw [perform, Action.after_bind_pure]
    exact Executor.linked_enter linked totalDuration
  | register ref cancels => exact Executor.linked_register linked ref cancels
  | cancel ref => exact Executor.linked_cancel linked ref
  | prepare plan => exact linked
  | run ref command timeout =>
    rw [perform, Action.after_bind_pure]
    exact Executor.linked_run linked ref command timeout
  | elsewhere action apart =>
    obtain ⟨executors, children⟩ := apart world
    rw [Runtime.Linked, perform, executors, children]
    exact linked

theorem linked_afterCalls {world : Runtime} (linked : world.Linked) (calls : List ExecutorCall) :
    (afterCalls calls world).Linked := by
  induction calls generalizing world with
  | nil => exact linked
  | cons call rest ih => exact ih (linked_perform linked call)

end ExecutorCall

theorem Runtime.linked_initial : Runtime.initial.Linked := by
  intro ref executor child found
  cases found

/-- A world that calls lead to, from one in which nothing has happened. -/
def Runtime.Reached (world : Runtime) : Prop :=
  ∃ calls, world = ExecutorCall.afterCalls calls .initial

theorem Runtime.Reached.linked {world : Runtime} (reached : world.Reached) : world.Linked := by
  obtain ⟨calls, rfl⟩ := reached
  exact ExecutorCall.linked_afterCalls Runtime.linked_initial calls

namespace Executor

/-- **When the events of a run are complete.** Whatever calls have been made, the events that a run
of a command tells its listeners until it returns or fails are complete if and only if the executor
was cancelled before or the program can be started. Otherwise the first event is the only one. -/
theorem run_complete_iff (calls : List ExecutorCall) {ref : Ref .executor} {executor : Executor}
    (present : (ExecutorCall.afterCalls calls .initial).executors.get? ref = some executor)
    {command : List String} (nonempty : command ≠ []) (timeout : Value) :
    ∃ events,
      ((run ref command timeout).after (ExecutorCall.afterCalls calls .initial)).events =
        (ExecutorCall.afterCalls calls .initial).events ++
          announced executor.listeners events ∧
      (Complete executor.cancelled events ↔
        executor.cancelled = true ∨ (ExecutorCall.afterCalls calls .initial).Starts) ∧
      (¬ Complete executor.cancelled events → events = [.started]) := by
  have linked := ExecutorCall.linked_afterCalls Runtime.linked_initial calls
  obtain ⟨events, ran, complete⟩ := run_events linked present nonempty timeout
  exact ⟨events, ran.events, complete⟩

/-- An executor whose listener cancels as soon as it is told anything, and a program that reports
progress. -/
def impatient : List ExecutorCall :=
  [.prepare ⟨[], ["frame=  1 fps=25"], 0, false, false, none⟩, .enter none,
    .register ⟨0⟩ fun _ => true]

theorem run_complete_impatient :
    ∃ events,
      ((run ⟨0⟩ ["ffmpeg"] .null).after (ExecutorCall.afterCalls impatient .initial)).events =
        announced [⟨0, fun _ => true⟩] events ∧ Complete false events := by
  have present : (ExecutorCall.afterCalls impatient .initial).executors.get? ⟨0⟩ =
    some ⟨none, [⟨0, fun _ => true⟩], false, none⟩ := rfl
  obtain ⟨events, told, complete, -⟩ :=
    run_complete_iff impatient present (List.cons_ne_nil "ffmpeg" []) .null
  exact ⟨events, told, complete.2 (.inr ⟨_, rfl, rfl⟩)⟩

/-- A program that may not be started leaves its run with the first event. -/
theorem run_forbidden :
    ((do plan ⟨[], [], 0, false, false, some (.notPermitted, "denied")⟩
         let ref ← enter none
         listen ref none
         run ref ["ffmpeg", "-version"] .null : Running RunResult).after .initial).events =
      [(0, .started)] := by
  decide

end Executor

end MediaCommand
