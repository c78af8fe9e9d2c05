import MediaCommand.Proofs.Execution.Reporting
import MediaCommand.Proofs.Execution.Signals

/-!
# The course of a run

How a run goes, told from the plan of its program: what it returns, which events it tells and which
child gets the requests for cancellation. `run_planned` says it of a program that can be started,
`run_cancelled` of an executor that was cancelled before, and `run_stuck` of a program that cannot
be started. Together they cover every run of a command.
-/

namespace MediaCommand

variable {ref : Ref .executor} {executor : Executor} {world : Runtime}

namespace ChildPlan

/-- Whether waiting for the child comes to its limit. Without a limit it never does. -/
def expires (plan : ChildPlan) : Value → Bool
  | .null => false
  | _ => plan.hangs

/-- What a run of the planned child returns. -/
def result (plan : ChildPlan) (duration : Option String) (timeout : Value) : RunResult :=
  let errors := (Progress.linesRead duration plan.stderr).map dropLineFeeds
  ⟨"\n".intercalate (plan.stdout.map dropLineFeeds),
    "\n".intercalate (if plan.expires timeout then errors ++ [Executor.timeoutLine] else errors),
    if plan.expires timeout then Executor.timeoutCode else plan.exitCode⟩

/-- The error lines that a run of the planned child ends with. -/
def captured (plan : ChildPlan) (duration : Option String) (timeout : Value) : List String :=
  let errors := (Progress.linesRead duration plan.stderr).map dropLineFeeds
  if plan.expires timeout then errors ++ [Executor.timeoutLine] else errors

end ChildPlan

/-- A child that was killed when it came to its limit. -/
def Child.expired (child : Child) (limit : Bool) : Child :=
  if limit then child.killed else child

theorem Child.stopped_expired_stopped (child : Child) (first second : Nat) (limit : Bool) :
    ((child.stopped first).expired limit).stopped second =
      (child.stopped (first + second)).expired limit := by
  cases limit <;> cases refuses : child.plan.refusesTerminate <;>
    simp [stopped, expired, killed, refuses] <;> omega

/-- What a run tells of a child once it has started: the progress that it reports, and how it
ended. -/
def Runtime.account (world : Runtime) (executor : Executor) (plan : ChildPlan) (timeout : Value) :
    List RunEvent :=
  let reports := (Progress.reports executor.totalDuration plan.stderr).map RunEvent.progress
  reports ++ [Executor.closing
    (executor.cancelled || decide (0 < world.requests executor.listeners reports))
    (plan.result executor.totalDuration timeout)]

namespace Executor

/-- Waiting kills the child that comes to its limit and does nothing else. -/
theorem wait_apply {child : Ref .child} {known : Child}
    (present : world.children.get? child = some known) (plan : ChildPlan) (timeout : Value) :
    wait child plan timeout world = .ok (plan.expires timeout) { world with
      children := world.children.put child (known.expired (plan.expires timeout)) } := by
  have patient : ({ world with children := world.children.put child known } : Runtime) = world := by
    rw [Store.put_self present]
  cases timeout with
  | null => exact congrArg (EStateM.Result.ok false) patient.symm
  | _ =>
    cases hangs : plan.hangs with
    | true =>
      simp only [wait, ChildPlan.expires, hangs, if_true]
      exact Action.bind_of_ok (changeChild_apply present Child.killed)
    | false =>
      simp only [wait, ChildPlan.expires, hangs, Bool.false_eq_true, if_false]
      exact congrArg (EStateM.Result.ok false) patient.symm

/-- What happens to a child that was just started until its run is concluded: its progress has been
told, and it was waited for. -/
structure Attended (ref : Ref .executor) (executor : Executor) (child : Ref .child)
    (plan : ChildPlan) (timeout : Value) (reports : List RunEvent) (before after : Runtime) :
    Prop where
  linked : after.Linked
  events : after.events = before.events ++ announced executor.listeners reports
  marked : after.executors.get? ref = some ({ executor with current := some child }.asked
    (before.requests executor.listeners reports))
  stopped : after.children.get? child = some (((Child.ofPlan plan).stopped
    (before.requests executor.listeners reports)).expired (plan.expires timeout))
  others : ∀ other, other ≠ child → after.children.get? other = before.children.get? other
  quiet : before.Quiet after

/-- A child that was just started is attended to before its run is concluded. -/
theorem supervise_attends (linked : world.Linked)
    (present : world.executors.get? ref = some executor) (program : String) {child : Ref .child}
    {plan : ChildPlan} (fresh : world.children.get? child = some (.ofPlan plan))
    (timeout : Value) :
    ∃ idle, supervise ref program child timeout world = (do
        conclude ref program (plan.captured executor.totalDuration timeout)
          (plan.result executor.totalDuration timeout)
        return plan.result executor.totalDuration timeout) idle ∧
      Attended ref executor child plan timeout
        ((Progress.reports executor.totalDuration plan.stderr).map RunEvent.progress)
        world idle := by
  let user : Executor := { executor with current := some child }
  let started : Runtime := { world with executors := world.executors.put ref user }
  have changed : change ref ({ · with current := some child }) world = .ok () started :=
    change_apply present _
  have marked : started.executors.get? ref = some user := Store.get?_put_self present
  have sound : started.Linked :=
    linked_put linked present fun other same => by
      cases same
      exact Option.isSome_iff_exists.2 ⟨_, fresh⟩
  -- The error lines are read, with requests on the way, and the child is waited for.
  obtain ⟨mid, read, said⟩ := says_readErrors sound marked plan.stderr
  have stopped : mid.children.get? child = some ((Child.ofPlan plan).stopped
      (world.requests executor.listeners
        ((Progress.reports executor.totalDuration plan.stderr).map RunEvent.progress))) := by
    rw [said.children, show started.children.get? child = _ from fresh,
      user.signalled_current rfl]
    rfl
  have waited := wait_apply stopped plan timeout
  refine ⟨_, ?_, linked_putChild said.linked child _, said.events, said.marked,
    Store.get?_put_self stopped, fun other away => ?_, ?_⟩
  · have found : started.children.get? child = some (.ofPlan plan) := fresh
    rw [supervise, Action.bind_of_ok changed, Action.get_bind_apply, found, requireObject,
      Action.pure_bind_apply, show (Child.ofPlan plan).plan = plan from rfl, Action.bind_of_ok read,
      Action.bind_of_ok waited]
    rfl
  · have unused : user.current ≠ some other := fun same => away (Option.some.inj same).symm
    rw [show Store.get? _ other = mid.children.get? other from Store.get?_put_other away,
      said.children, user.signalled_other unused]
    simp [started]
  · have reading : world.Quiet mid :=
      ((quiet_change ref _).of_ok changed).trans ((quiet_readErrors ref _).of_ok read)
    exact reading.trans ((quiet_wait child plan timeout).of_ok waited)

/-- A child that was just started is seen through to its end. -/
theorem supervise_apply (linked : world.Linked)
    (present : world.executors.get? ref = some executor) (program : String) {child : Ref .child}
    {plan : ChildPlan} (fresh : world.children.get? child = some (.ofPlan plan))
    (timeout : Value) {events : List RunEvent}
    (account : events = world.account executor plan timeout) :
    ∃ after, supervise ref program child timeout world =
        .ok (plan.result executor.totalDuration timeout) after ∧
      after.Linked ∧
      after.events = world.events ++ announced executor.listeners events ∧
      after.executors.get? ref = some ({ executor with current := some child }.asked
        (world.requests executor.listeners events)) ∧
      after.children.get? child = some (((Child.ofPlan plan).stopped
        (world.requests executor.listeners events)).expired (plan.expires timeout)) ∧
      ∀ other, other ≠ child → after.children.get? other = world.children.get? other := by
  obtain ⟨idle, begun, attended⟩ := supervise_attends linked present program fresh timeout
  generalize reported : (Progress.reports executor.totalDuration plan.stderr).map
    RunEvent.progress = reports at attended
  have ended : events = reports ++
      [closing (executor.cancelled || decide (0 < world.requests executor.listeners reports))
        (plan.result executor.totalDuration timeout)] := by
    rw [account, ← reported]
    rfl
  obtain ⟨after, concluded, second⟩ := says_conclude attended.linked attended.marked program
    (plan.captured executor.totalDuration timeout) (plan.result executor.totalDuration timeout)
  have count : world.requests executor.listeners events = _ :=
    ended ▸ Runtime.requests_append attended.events _
  refine ⟨after, begun.trans (Action.bind_of_ok concluded), second.linked, ?_, ?_, ?_,
    fun other away => ?_⟩
  · rw [second.events, ended, announced_append, ← List.append_assoc]
    exact congrArg (· ++ _) attended.events
  · rw [second.marked, asked_asked, count]
    rfl
  · have busy (times : Nat) : ({ executor with current := some child }.asked times).current =
      some child := rfl
    rw [second.children, attended.stopped, signalled_current (busy _), count,
      ← Child.stopped_expired_stopped]
    rfl
  · have unused (times : Nat) : ({ executor with current := some child }.asked times).current ≠
      some other := fun same => away (Option.some.inj same).symm
    rw [second.children, signalled_other (unused _), attended.others other away]
    simp

end Executor

/-! ## Runs -/

/-- The world after a planned program was started. -/
def Runtime.launched (world : Runtime) (command : List String) (plan : ChildPlan)
    (plans : List ChildPlan) : Runtime :=
  { world with
    launches := world.launches ++ [command]
    plans
    children := world.children.add (.ofPlan plan) }

/-- The next program can be started. -/
def Runtime.Starts (world : Runtime) : Prop :=
  ∃ plan, world.plans.head? = some plan ∧ plan.fault = none

namespace Executor

/-- A planned program becomes a child. -/
theorem launch_apply {plan : ChildPlan} {plans : List ChildPlan}
    (planned : world.plans = plan :: plans) (sound : plan.fault = none) (command : List String) :
    launch command world = .ok world.children.next (world.launched command plan plans) := by
  simp only [launch, Action.modify_bind_apply, Action.get_bind_apply, planned, sound]
  rfl

/-- A program that cannot be started leaves executors, children and events as they are. -/
theorem launch_of_not_starts (stuck : ¬ world.Starts) (command : List String) :
    ∃ failure after, launch command world = .error failure after ∧
      after.executors = world.executors ∧ after.children = world.children ∧
      after.events = world.events := by
  cases queued : world.plans with
  | nil =>
    refine ⟨.launch .notFound "no process planned",
      { world with launches := world.launches ++ [command] }, ?_, rfl, rfl, rfl⟩
    simp only [launch, Action.modify_bind_apply, Action.get_bind_apply, queued, Action.throw_apply]
  | cons plan plans =>
    cases fault : plan.fault with
    | none => exact absurd ⟨plan, by simp [queued], fault⟩ stuck
    | some said =>
      refine ⟨.launch said.1 said.2,
        { world with launches := world.launches ++ [command], plans }, ?_, rfl, rfl, rfl⟩
      simp only [launch, Action.modify_bind_apply, Action.get_bind_apply, queued, fault]
      rfl

/-- A run that was not cancelled before says that it started and then launches the program. -/
theorem run_begins (linked : world.Linked) (present : world.executors.get? ref = some executor)
    (active : executor.cancelled = false) (program : String) (rest : List String)
    (timeout : Value) :
    ∃ mid, Says ref executor [.started] world mid ∧
      run ref (program :: rest) timeout world = (do
        let child ← launch (program :: rest)
        let result ← supervise ref program child timeout
        log .info "%s execution time %ss" [.text program, .text "0.000"]
        return result) mid ∧
      world.Quiet mid := by
  have fillable : Fillable "%s command: %s"
      [.text program, .text (" ".intercalate (program :: rest))] := ⟨⟨_, rfl⟩, _, rfl⟩
  obtain ⟨logged, logging, first⟩ := says_log linked present fillable .info
  obtain ⟨mid, emitted, second⟩ := says_emit first.linked first.marked .started
  refine ⟨mid, first.trans second, ?_, ?_⟩
  · simp only [run, Action.bind_of_ok (read_apply present), active, Bool.false_eq_true, if_false,
      Action.bind_of_ok logging, Action.bind_of_ok emitted]
  · exact ((quiet_log (by decide) _ _).of_ok logging).trans ((quiet_emit ref _).of_ok emitted)

/-- A run of a planned program says that it started and then supervises the new child. -/
theorem run_launches (linked : world.Linked) (present : world.executors.get? ref = some executor)
    (active : executor.cancelled = false) {plan : ChildPlan} {plans : List ChildPlan}
    (planned : world.plans = plan :: plans) (sound : plan.fault = none) (program : String)
    (rest : List String) (timeout : Value) :
    ∃ mid, Says ref executor [.started] world mid ∧
      (mid.launched (program :: rest) plan plans).Linked ∧
      run ref (program :: rest) timeout world = (do
        let result ← supervise ref program mid.children.next timeout
        log .info "%s execution time %ss" [.text program, .text "0.000"]
        return result) (mid.launched (program :: rest) plan plans) ∧
      world.Quiet (mid.launched (program :: rest) plan plans) := by
  obtain ⟨mid, first, begun, quiet⟩ := run_begins linked present active program rest timeout
  have launching := launch_apply (first.plans.trans planned) sound (program :: rest)
  exact ⟨mid, first, linked_addChild first.linked _, begun.trans (Action.bind_of_ok launching),
    quiet.trans ((quiet_launch _).of_ok launching)⟩

/-- A run of an executor that was cancelled before says just that. -/
theorem run_cancelled (linked : world.Linked) (present : world.executors.get? ref = some executor)
    (cancelled : executor.cancelled = true) {command : List String} (nonempty : command ≠ [])
    (timeout : Value) :
    ∃ after, run ref command timeout world = .ok ⟨"", "", cancelledCode⟩ after ∧
      Says ref executor [.cancelled] world after := by
  obtain ⟨program, rest, rfl⟩ := List.exists_cons_of_ne_nil nonempty
  obtain ⟨after, emitted, said⟩ := says_emit linked present .cancelled
  refine ⟨after, ?_, said⟩
  simp only [run, Action.bind_of_ok (read_apply present), cancelled, if_true,
    Action.bind_of_ok emitted, Action.pure_apply]

/-- A run of a program that cannot be started fails, having said only that it started. -/
theorem run_stuck (linked : world.Linked) (present : world.executors.get? ref = some executor)
    (active : executor.cancelled = false) (stuck : ¬ world.Starts) {command : List String}
    (nonempty : command ≠ []) (timeout : Value) :
    ∃ failure mid after, run ref command timeout world = .error failure after ∧
      Says ref executor [.started] world mid ∧ after.executors = mid.executors ∧
      after.children = mid.children ∧ after.events = mid.events := by
  obtain ⟨program, rest, rfl⟩ := List.exists_cons_of_ne_nil nonempty
  obtain ⟨mid, first, begun, -⟩ := run_begins linked present active program rest timeout
  have stuck : ¬ mid.Starts := by rwa [Runtime.Starts, first.plans]
  obtain ⟨failure, after, failed, same⟩ := launch_of_not_starts stuck (program :: rest)
  exact ⟨failure, mid, after, begun.trans (Action.bind_of_error failed), first, same⟩

end Executor

/-- The events of a run of a planned program: that it started, the progress it reports, and how it
ended. -/
def Runtime.course (world : Runtime) (executor : Executor) (plan : ChildPlan) (timeout : Value) :
    List RunEvent :=
  let reports := (Progress.reports executor.totalDuration plan.stderr).map RunEvent.progress
  .started :: (reports ++
    [Executor.closing (decide (0 < world.requests executor.listeners (.started :: reports)))
      (plan.result executor.totalDuration timeout)])

/-- What a planned program has told before it ends. -/
def ChildPlan.underway (plan : ChildPlan) (duration : Option String) : List RunEvent :=
  .started :: (Progress.reports duration plan.stderr).map RunEvent.progress

theorem Runtime.course_concat (world : Runtime) (executor : Executor) (plan : ChildPlan)
    (timeout : Value) :
    world.course executor plan timeout = plan.underway executor.totalDuration ++
      [Executor.closing
        (decide (0 < world.requests executor.listeners (plan.underway executor.totalDuration)))
        (plan.result executor.totalDuration timeout)] := rfl

theorem Runtime.course_eq {mid : Runtime} (active : executor.cancelled = false)
    (told : mid.events = world.events ++ announced executor.listeners [.started])
    (plan : ChildPlan) (timeout : Value) :
    .started :: mid.account (executor.asked (world.requests executor.listeners [.started])) plan
        timeout =
      world.course executor plan timeout := by
  have count := Runtime.requests_append told
    ((Progress.reports executor.totalDuration plan.stderr).map RunEvent.progress)
  have flag := congrArg Executor.cancelled (executor.asked_asked
    (world.requests executor.listeners [.started])
    (mid.requests executor.listeners
      ((Progress.reports executor.totalDuration plan.stderr).map RunEvent.progress)))
  simp only [Executor.asked, active, Bool.false_or] at flag
  rw [List.singleton_append] at count
  simp only [course, account, Executor.asked, active, Bool.false_or, flag, count]

namespace Executor

theorem cancelled_eq_closing_iff (cancelled : Bool) (result : RunResult) :
    RunEvent.cancelled = closing cancelled result ↔ cancelled = true := by
  unfold closing
  split
  · simp [*]
  · split <;> simp [*]

/-- A planned run says that it was cancelled when a listener asked for that before the end. -/
theorem cancelled_mem_course (world : Runtime) (executor : Executor) (plan : ChildPlan)
    (timeout : Value) :
    .cancelled ∈ world.course executor plan timeout ↔
      0 < world.requests executor.listeners (world.course executor plan timeout).dropLast := by
  have unlisted : RunEvent.cancelled ∉ plan.underway executor.totalDuration := by
    simp [ChildPlan.underway]
  rw [world.course_concat, List.dropLast_concat, List.mem_append, List.mem_singleton,
    or_iff_right unlisted, cancelled_eq_closing_iff, decide_eq_true_iff]

end Executor

/-- What a run of a planned program does to the world. Requests for cancellation reach the child
that the executor held so far while the start is told, and the child of the run from then on. -/
structure Ran (ref : Ref .executor) (executor : Executor) (plan : ChildPlan) (timeout : Value)
    (before after : Runtime) : Prop where
  linked : after.Linked
  events : after.events =
    before.events ++ announced executor.listeners (before.course executor plan timeout)
  marked : after.executors.get? ref =
    some ({ executor with current := some before.children.next }.asked
      (before.requests executor.listeners (before.course executor plan timeout)))
  child : after.children.get? before.children.next = some (((Child.ofPlan plan).stopped
    (before.requests executor.listeners (before.course executor plan timeout) -
      before.requests executor.listeners [.started])).expired (plan.expires timeout))
  earlier : ∀ other old, before.children.get? other = some old →
    after.children.get? other =
      some (executor.signalled (before.requests executor.listeners [.started]) other old)

namespace Executor

/-- A run of a planned program returns what the plan says. -/
theorem run_planned (linked : world.Linked) (present : world.executors.get? ref = some executor)
    (active : executor.cancelled = false) {plan : ChildPlan} {plans : List ChildPlan}
    (planned : world.plans = plan :: plans) (sound : plan.fault = none) {command : List String}
    (nonempty : command ≠ []) (timeout : Value) :
    ∃ after, run ref command timeout world =
        .ok (plan.result executor.totalDuration timeout) after ∧
      Ran ref executor plan timeout world after := by
  obtain ⟨program, rest, rfl⟩ := List.exists_cons_of_ne_nil nonempty
  obtain ⟨mid, first, still, begun, -⟩ :=
    run_launches linked present active planned sound program rest timeout
  let launched := mid.launched (program :: rest) plan plans
  have fresh : launched.children.get? mid.children.next = some (.ofPlan plan) :=
    Store.get?_add_next _ _
  -- The requests made at the start come before those made while the child is supervised.
  have told : launched.events = world.events ++ announced executor.listeners [.started] :=
    first.events
  have course := Runtime.course_eq active told plan timeout
  have count := Runtime.requests_append told
    (launched.account (executor.asked (world.requests executor.listeners [.started])) plan timeout)
  rw [List.singleton_append, course] at count
  generalize marks : world.requests executor.listeners [.started] = early at *
  obtain ⟨ended, supervised, sound', events, marked, child, others⟩ :=
    supervise_apply still first.marked program fresh timeout rfl
  have fillable : Fillable "%s execution time %ss" [.text program, .text "0.000"] :=
    ⟨⟨_, rfl⟩, _, rfl⟩
  obtain ⟨after, logged, last⟩ := says_log sound' marked fillable .info
  obtain ⟨silent, kept, same⟩ := last.silent
  refine ⟨after, ?_, last.linked, ?_, ?_, ?_, ?_⟩
  · rw [begun, Action.bind_of_ok supervised, Action.bind_of_ok logged]
    rfl
  · rw [silent, events, told, marks, asked_listeners, List.append_assoc, ← announced_append,
      List.singleton_append, course]
  · rw [kept, marks, first.next_child, count, ← asked_asked]
    rfl
  · rw [same, ← first.next_child, child, marks, count, Nat.add_sub_cancel_left]
    rfl
  · intro other old there
    have passed : mid.children.get? other = some (executor.signalled early other old) := by
      rw [first.children, there, marks]
      rfl
    have known : launched.children.get? other = some (executor.signalled early other old) :=
      Store.get?_add_of_some passed
    have differ : other ≠ mid.children.next := by
      rintro rfl
      rw [Store.get?_next] at passed
      cases passed
    rw [same, others other differ, known, marks]

end Executor

end MediaCommand
