import MediaCommand.Proofs.Execution.Telling

/-!
# Signals

A listener that cancels marks the executor and signals the child in use. `Says` says of an operation
of an executor which events it tells, and that the requests for cancellation made meanwhile are all
that executor and child get. Each lemma `says_…` says it of one operation; they compose by
`Says.trans`.
-/

namespace MediaCommand

variable {ref : Ref .executor} {executor : Executor} {world : Runtime}

/-- A child that was asked to stop a number of times. -/
def Child.stopped (child : Child) (times : Nat) : Child :=
  { child with
    terminations := child.terminations + times
    kills := child.kills + if child.plan.refusesTerminate then 0 else times }

@[simp] theorem Child.stopped_zero (child : Child) : child.stopped 0 = child := by
  simp [stopped]

namespace Executor

/-- An executor that was asked to cancel a number of times. -/
def asked (executor : Executor) (times : Nat) : Executor :=
  { executor with cancelled := executor.cancelled || decide (0 < times) }

/-- A child after the executor was asked to cancel a number of times. -/
def signalled (executor : Executor) (times : Nat) (ref : Ref .child) (child : Child) : Child :=
  if executor.current = some ref then child.stopped times else child

@[simp] theorem asked_totalDuration (executor : Executor) (times : Nat) :
    (executor.asked times).totalDuration = executor.totalDuration := rfl

@[simp] theorem asked_listeners (executor : Executor) (times : Nat) :
    (executor.asked times).listeners = executor.listeners := rfl

@[simp] theorem asked_zero (executor : Executor) : executor.asked 0 = executor := by
  simp [asked]

theorem asked_asked (executor : Executor) (first second : Nat) :
    (executor.asked first).asked second = executor.asked (first + second) := by
  have split : decide (0 < first + second) = (decide (0 < first) || decide (0 < second)) := by
    rw [← Bool.decide_or]
    congr 1
    simp only [eq_iff_iff]
    omega
  simp only [asked, Bool.or_assoc, split]

@[simp] theorem signalled_zero (executor : Executor) (ref : Ref .child) :
    executor.signalled 0 ref = id := by
  funext child
  simp [signalled]

theorem signalled_current {child : Ref .child} (current : executor.current = some child)
    (times : Nat) : executor.signalled times child = (·.stopped times) := by
  funext c
  simp [signalled, current]

theorem signalled_other {child : Ref .child} (other : executor.current ≠ some child)
    (times : Nat) : executor.signalled times child = id := by
  funext c
  simp [signalled, other]

theorem signalled_signalled (executor : Executor) (first second : Nat) (ref : Ref .child)
    (child : Child) :
    executor.signalled second ref (executor.signalled first ref child) =
      executor.signalled (first + second) ref child := by
  unfold signalled
  split
  · cases refuses : child.plan.refusesTerminate <;> simp [Child.stopped, refuses, Nat.add_assoc]
  · rfl

end Executor

/-! ## Operations that signal -/

/-- What an operation of an executor does: it tells a record, and as often as it says a listener
asked to cancel, which marks the executor and signals its child. -/
structure Signals (ref : Ref .executor) (executor : Executor) (times : Nat)
    (record : List (Nat × RunEvent)) (before after : Runtime) : Prop where
  linked : after.Linked
  events : after.events = before.events ++ record
  plans : after.plans = before.plans
  marked : after.executors.get? ref = some (executor.asked times)
  children : ∀ child, after.children.get? child =
    (before.children.get? child).map (executor.signalled times child)

theorem Signals.nothing (linked : world.Linked)
    (present : world.executors.get? ref = some executor) :
    Signals ref executor 0 [] world world where
  linked := linked
  events := by simp
  plans := rfl
  marked := by simpa using present
  children child := by simp

theorem Signals.trans {first second : Nat} {record further : List (Nat × RunEvent)}
    {mid after : Runtime} (start : Signals ref executor first record world mid)
    (next : Signals ref (executor.asked first) second further mid after) :
    Signals ref executor (first + second) (record ++ further) world after where
  linked := next.linked
  events := by rw [next.events, start.events, List.append_assoc]
  plans := next.plans.trans start.plans
  marked := by rw [next.marked, Executor.asked_asked]
  children child := by
    rw [next.children, start.children, Option.map_map]
    exact congrArg (Option.map · _) (funext (executor.signalled_signalled first second child))

theorem Signals.next_child {times : Nat} {record : List (Nat × RunEvent)} {after : Runtime}
    (signals : Signals ref executor times record world after) :
    after.children.next = world.children.next :=
  Store.next_eq_of_map signals.children

/-- What leaves executors, children, events and plans as they are does not signal. -/
theorem Signals.of_unchanged {after : Runtime} (linked : world.Linked)
    (present : world.executors.get? ref = some executor)
    (executors : after.executors = world.executors) (children : after.children = world.children)
    (events : after.events = world.events) (plans : after.plans = world.plans) :
    Signals ref executor 0 [] world after where
  linked := by rwa [Runtime.Linked, executors, children]
  events := by rw [events, List.append_nil]
  plans := plans
  marked := by rw [executors, present, Executor.asked_zero]
  children child := by simp [children]

namespace Executor

/-- A child that is asked to stop is terminated and, unless it refuses that, killed. -/
theorem stop_apply {ref : Ref .child} {child : Child}
    (present : world.children.get? ref = some child) :
    stop ref world =
      .ok () { world with children := world.children.put ref (child.stopped 1) } := by
  let mid : Runtime := { world with children := world.children.put ref child.terminated }
  have there : mid.children.get? ref = some child.terminated := Store.get?_put_self present
  have begun : stop ref world =
      (if !child.plan.refusesTerminate then changeChild ref Child.killed else pure ()) mid := by
    simp only [stop, Action.get_bind_apply, present]
    exact Action.bind_of_ok (changeChild_apply present Child.terminated)
  rw [begun]
  cases refuses : child.plan.refusesTerminate with
  | true => simp [mid, Child.stopped, Child.terminated, refuses]
  | false =>
    have killed := changeChild_apply there Child.killed
    simpa [mid, Store.put, Child.stopped, Child.terminated, Child.killed, refuses] using killed

/-- Cancelling is one request. -/
theorem signals_cancel (linked : world.Linked)
    (present : world.executors.get? ref = some executor) :
    ∃ after, cancel ref world = .ok () after ∧ Signals ref executor 1 [] world after := by
  let mid : Runtime := { world with executors := world.executors.put ref (executor.asked 1) }
  have marked : mid.executors.get? ref = some (executor.asked 1) := Store.get?_put_self present
  have one : executor.asked 1 = { executor with cancelled := true } := by simp [asked]
  have sound : mid.Linked :=
    linked_put linked present fun child => linked ref executor child present
  have changed : change ref ({ · with cancelled := true }) world = .ok () mid := by
    rw [change_apply present, ← one]
  cases current : executor.current with
  | none =>
    have done : cancel ref world = .ok () mid := by
      rw [cancel, Action.bind_of_ok changed, Action.bind_of_ok (read_apply marked)]
      simp only [asked, current]
      rfl
    refine ⟨mid, done, sound, by simp [mid], rfl, marked, fun child => ?_⟩
    simp [mid, signalled_other (by simp [current] : executor.current ≠ some child)]
  | some child =>
    obtain ⟨old, found⟩ := Option.isSome_iff_exists.1 (linked ref executor child present current)
    have done : cancel ref world = stop child mid := by
      rw [cancel, Action.bind_of_ok changed, Action.bind_of_ok (read_apply marked)]
      simp only [asked, current]
    refine ⟨_, done.trans (stop_apply found), linked_putChild sound child _, by simp [mid], rfl, marked,
      fun other => ?_⟩
    by_cases same : other = child
    · subst same
      simp [mid, signalled_current current, found, Store.get?_put_self found]
    · have away : executor.current ≠ some other := by simp [current, Ne.symm same]
      simp [mid, signalled_other away, Store.get?_put_other same]

/-- Telling an event to some listeners signals as often as one of them asks to cancel. -/
theorem signals_tell (linked : world.Linked)
    (present : world.executors.get? ref = some executor) (event : RunEvent)
    (listeners : List Listener) :
    ∃ after, tell ref event listeners world = .ok () after ∧
      Signals ref executor
        (requests world.events (listeners.map fun listener => (listener, event)))
        (listeners.map fun listener => (listener.number, event)) world after := by
  induction listeners generalizing world executor with
  | nil => exact ⟨world, rfl, .nothing linked present⟩
  | cons listener rest ih =>
    let entry := (listener.number, event)
    let heard : Runtime := { world with events := world.events ++ [entry] }
    have first : Signals ref executor 0 [entry] world heard :=
      ⟨linked, rfl, rfl, by simpa using present, by simp [heard]⟩
    -- The listener cancels or not; either way the others are told next.
    have answered : ∃ mid, tell ref event (listener :: rest) world = tell ref event rest mid ∧
        Signals ref executor (if listener.cancels (heard.told listener.number) then 1 else 0)
          [entry] world mid := by
      rw [tell, Action.modify_bind_apply, Action.get_bind_apply]
      split
      · obtain ⟨mid, cancelled, second⟩ := signals_cancel first.linked present
        have both := first.trans (by simpa using second)
        exact ⟨mid, Action.bind_of_ok cancelled, by simpa using both⟩
      · exact ⟨heard, rfl, first⟩
    obtain ⟨mid, told, second⟩ := answered
    obtain ⟨after, done, third⟩ := ih second.linked second.marked
    refine ⟨after, told.trans done, ?_⟩
    have all := second.trans third
    rw [second.events] at all
    exact all

end Executor

/-! ## Operations that tell events to all listeners -/

/-- What an operation of an executor does that tells events to all of its listeners. -/
def Says (ref : Ref .executor) (executor : Executor) (events : List RunEvent)
    (before after : Runtime) : Prop :=
  Signals ref executor (before.requests executor.listeners events)
    (announced executor.listeners events) before after

theorem Says.nothing (linked : world.Linked)
    (present : world.executors.get? ref = some executor) : Says ref executor [] world world :=
  Signals.nothing linked present

theorem Says.trans {first second : List RunEvent} {mid after : Runtime}
    (start : Says ref executor first world mid)
    (next : Says ref (executor.asked (world.requests executor.listeners first)) second mid after) :
    Says ref executor (first ++ second) world after := by
  rw [Says, Runtime.requests_append start.events, announced_append]
  exact Signals.trans start next

/-- Where nothing is said nobody can ask to cancel. -/
theorem Says.silent {after : Runtime} (said : Says ref executor [] world after) :
    after.events = world.events ∧ after.executors.get? ref = some executor ∧
      ∀ child, after.children.get? child = world.children.get? child := by
  refine ⟨by simpa using said.events, by simpa using said.marked, fun child => ?_⟩
  simpa using said.children child

namespace Executor

/-- A message says nothing. -/
theorem says_log (linked : world.Linked) (present : world.executors.get? ref = some executor)
    {template : String} {arguments : List Value} (fillable : Fillable template arguments)
    (level : LogLevel) :
    ∃ after, log level template arguments world = .ok () after ∧
      Says ref executor [] world after := by
  obtain ⟨journal, done⟩ := log_apply fillable level world
  exact ⟨_, done, Signals.of_unchanged linked present rfl rfl rfl rfl⟩

/-- An event is told to all listeners. -/
theorem says_emit (linked : world.Linked) (present : world.executors.get? ref = some executor)
    (event : RunEvent) :
    ∃ after, emit ref event world = .ok () after ∧ Says ref executor [event] world after := by
  obtain ⟨after, told, signals⟩ := signals_tell linked present event executor.listeners
  refine ⟨after, ?_, by simpa [Says, Runtime.requests, announcements, announced] using signals⟩
  rw [emit, Action.bind_of_ok (read_apply present)]
  exact told

end Executor

/-! ## Error lines -/

namespace Progress

/-- The progress that a line reports, if it can be read. -/
def reported? (duration : Option String) (line : String) : Option Progress :=
  if Executor.reportsProgress line then (ofLine line duration).toOption else none

/-- Whether reading goes on after a line: it reports no progress, or progress that can be read. -/
def readsOn (duration : Option String) (line : String) : Bool :=
  !Executor.reportsProgress line || (reported? duration line).isSome

/-- The progress that lines report up to the first that cannot be read. -/
def reports (duration : Option String) (lines : List String) : List Progress :=
  (lines.takeWhile (readsOn duration)).filterMap (reported? duration)

/-- The lines up to the first whose progress cannot be read, which is one of them. -/
def linesRead (duration : Option String) (lines : List String) : List String :=
  lines.takeWhile (readsOn duration) ++ (lines.dropWhile (readsOn duration)).take 1

end Progress

namespace Executor

/-- Reading error lines says the progress that they report. -/
theorem says_readErrors (linked : world.Linked)
    (present : world.executors.get? ref = some executor) (lines : List String) :
    ∃ after, readErrors ref lines world =
        .ok ((Progress.linesRead executor.totalDuration lines).map dropLineFeeds) after ∧
      Says ref executor ((Progress.reports executor.totalDuration lines).map RunEvent.progress)
        world after := by
  induction lines generalizing world executor with
  | nil => exact ⟨world, rfl, .nothing linked present⟩
  | cons line rest ih =>
    rw [readErrors]
    split
    next reporting =>
      rw [Action.bind_of_ok (read_apply present)]
      cases outcome : Progress.ofLine line executor.totalDuration with
      | error failure =>
        have stops : Progress.readsOn executor.totalDuration line = false := by
          simp [Progress.readsOn, Progress.reported?, reporting, outcome, Except.toOption]
        refine ⟨world, ?_, ?_⟩
        · simp [Progress.linesRead, stops]
        · simpa [Progress.reports, stops] using Says.nothing linked present
      | ok progress =>
        have found : Progress.reported? executor.totalDuration line = some progress := by
          simp [Progress.reported?, reporting, outcome, Except.toOption]
        have goes : Progress.readsOn executor.totalDuration line = true := by
          simp [Progress.readsOn, found]
        obtain ⟨mid, emitted, first⟩ := says_emit linked present (.progress progress)
        obtain ⟨after, read, second⟩ := ih first.linked first.marked
        refine ⟨after, ?_, ?_⟩
        · dsimp only
          rw [Action.bind_of_ok emitted, Action.bind_of_ok read]
          simp [Progress.linesRead, goes]
        · simpa [Progress.reports, goes, found] using first.trans second
    next silent =>
      have nothing : Progress.reported? executor.totalDuration line = none := by
        simp [Progress.reported?, silent]
      have goes : Progress.readsOn executor.totalDuration line = true := by
        simp [Progress.readsOn, silent]
      obtain ⟨after, read, said⟩ := ih linked present
      refine ⟨after, (Action.bind_of_ok read).trans ?_, ?_⟩
      · simp [Progress.linesRead, goes]
      · simpa [Progress.reports, goes, nothing] using said

/-! ## The end of a run -/

theorem says_logLines (linked : world.Linked)
    (present : world.executors.get? ref = some executor) (lines : List String) :
    ∃ after, logFailure.logLines lines world = .ok () after ∧
      Says ref executor [] world after := by
  induction lines generalizing world executor with
  | nil => exact ⟨world, rfl, .nothing linked present⟩
  | cons line rest ih =>
    have fillable (text : String) : Fillable "%s" [.text text] := ⟨⟨_, rfl⟩, _, rfl⟩
    obtain ⟨mid, logged, first⟩ := says_log linked present (fillable _) .error
    obtain ⟨after, done, second⟩ := ih first.linked first.marked
    exact ⟨after, (Action.bind_of_ok logged).trans done, first.trans second⟩

/-- The report of a failure says nothing. -/
theorem says_logFailure (linked : world.Linked)
    (present : world.executors.get? ref = some executor) (program : String)
    (errors : List String) (exitCode : Int) :
    ∃ after, logFailure program errors exitCode world = .ok () after ∧
      Says ref executor [] world after := by
  have fillable : Fillable "%s exited with code %d" [.text program, .int exitCode] :=
    ⟨⟨_, rfl⟩, _, rfl⟩
  obtain ⟨mid, logged, first⟩ := says_log linked present fillable .error
  obtain ⟨after, done, second⟩ := says_logLines first.linked first.marked _
  exact ⟨after, (Action.bind_of_ok logged).trans done, first.trans second⟩

/-- The event that ends a run with a result, cancelled or not. -/
def closing (cancelled : Bool) (result : RunResult) : RunEvent :=
  if cancelled then .cancelled else if result.exitCode = 0 then .completed result
  else .failed result

/-- The end of a run says the event that ends it. -/
theorem says_conclude (linked : world.Linked)
    (present : world.executors.get? ref = some executor) (program : String)
    (errors : List String) (result : RunResult) :
    ∃ after, conclude ref program errors result world = .ok () after ∧
      Says ref executor [closing executor.cancelled result] world after := by
  rw [conclude, Action.bind_of_ok (read_apply present)]
  cases cancelled : executor.cancelled with
  | true =>
    obtain ⟨after, emitted, said⟩ := says_emit linked present .cancelled
    exact ⟨after, emitted, said⟩
  | false =>
    by_cases zero : result.exitCode = 0
    · obtain ⟨after, emitted, said⟩ := says_emit linked present (.completed result)
      refine ⟨after, ?_, by simpa [closing, zero] using said⟩
      simpa [zero] using emitted
    · obtain ⟨mid, logged, first⟩ := says_logFailure linked present program errors result.exitCode
      obtain ⟨after, emitted, second⟩ := says_emit first.linked first.marked (.failed result)
      refine ⟨after, ?_, by simpa [closing, zero] using first.trans second⟩
      simpa [zero, Action.bind_of_ok logged] using emitted

end Executor

end MediaCommand
