import MediaCommand.Proofs.Execution.EventProtocol

/-!
# The log of a failure

What a run writes to the journal at the error level. `run_errorMessages` says it of every run that
calls can lead to: a program that fails without having been cancelled is reported with its exit code
and the last of its error lines, and no other run reports an error.
-/

namespace MediaCommand

/-- Messages that report a failed program: its exit code, then its last twenty error lines, or all of
them if there are fewer. -/
def IsFailureReport (program : String) (captured : List String) (exitCode : Int)
    (messages : List String) : Prop :=
  ∃ tail, tail <:+ captured ∧ tail.length = min 20 captured.length ∧
    messages = (program ++ " exited with code " ++ toString exitCode) ::
      tail.map Executor.reportedLine

theorem ChildPlan.captured_eq (plan : ChildPlan) (duration : Option String) (timeout : Value) :
    plan.captured duration timeout =
      (Progress.linesRead duration plan.stderr).map dropLineFeeds ++
        if plan.expires timeout then ["Process timed out"] else [] := by
  unfold captured
  split
  · rfl
  · exact (List.append_nil _).symm

namespace Executor

variable {ref : Ref .executor} {executor : Executor} {world : Runtime}

/-- The end of a run that was not cancelled reports a failure as it should. -/
theorem isFailureReport_endReport {exitCode : Int} (failed : exitCode ≠ 0) (program : String)
    (errors : List String) :
    IsFailureReport program errors exitCode (endReport false program errors exitCode) := by
  rw [endReport, if_neg (not_or.2 ⟨Bool.false_ne_true, failed⟩)]
  refine ⟨_, List.drop_suffix _ errors, ?_, rfl⟩
  rw [List.length_drop, tailLength]
  omega

/-- A child that was just started is reported when it fails. -/
theorem supervise_reports (linked : world.Linked)
    (present : world.executors.get? ref = some executor) (program : String) {child : Ref .child}
    {plan : ChildPlan} (fresh : world.children.get? child = some (.ofPlan plan))
    (timeout : Value) :
    ∃ after, supervise ref program child timeout world =
        .ok (plan.result executor.totalDuration timeout) after ∧
      world.Reports (endReport
        (executor.cancelled || decide (0 < world.requests executor.listeners
          ((Progress.reports executor.totalDuration plan.stderr).map RunEvent.progress)))
        program (plan.captured executor.totalDuration timeout)
        (plan.result executor.totalDuration timeout).exitCode) after := by
  obtain ⟨idle, begun, attended⟩ := supervise_attends linked present program fresh timeout
  obtain ⟨after, concluded, -⟩ := says_conclude attended.linked attended.marked program
    (plan.captured executor.totalDuration timeout) (plan.result executor.totalDuration timeout)
  have report := conclude_reports attended.marked program
    (plan.captured executor.totalDuration timeout) (plan.result executor.totalDuration timeout)
  rw [Action.after_of_ok concluded] at report
  exact ⟨after, begun.trans (Action.bind_of_ok concluded), attended.quiet.trans_reports report⟩

/-- A run of a planned program is reported when it fails. -/
theorem run_reports (linked : world.Linked) (present : world.executors.get? ref = some executor)
    (active : executor.cancelled = false) {plan : ChildPlan} {plans : List ChildPlan}
    (planned : world.plans = plan :: plans) (sound : plan.fault = none) (program : String)
    (rest : List String) (timeout : Value) :
    world.Reports
      (endReport
        (decide (0 < world.requests executor.listeners (plan.underway executor.totalDuration)))
        program (plan.captured executor.totalDuration timeout)
        (plan.result executor.totalDuration timeout).exitCode)
      ((run ref (program :: rest) timeout).after world) := by
  obtain ⟨mid, first, still, begun, quiet⟩ :=
    run_launches linked present active planned sound program rest timeout
  let launched := mid.launched (program :: rest) plan plans
  obtain ⟨ended, supervised, report⟩ := supervise_reports still first.marked program
    (Store.get?_add_next _ _) timeout
  -- A request for cancellation is made at the start or while the child is supervised.
  have asked :
      ((executor.asked (world.requests executor.listeners [.started])).cancelled ||
        decide (0 < launched.requests executor.listeners
          ((Progress.reports executor.totalDuration plan.stderr).map RunEvent.progress))) =
      decide (0 < world.requests executor.listeners (plan.underway executor.totalDuration)) := by
    have count : world.requests executor.listeners (plan.underway executor.totalDuration) = _ :=
      Runtime.requests_append first.events
        ((Progress.reports executor.totalDuration plan.stderr).map RunEvent.progress)
    rw [count, Executor.asked, active, Bool.false_or, ← Bool.decide_or]
    simp only [Nat.add_pos_iff_pos_or_pos]
    rfl
  rw [asked_listeners, asked_totalDuration, asked] at report
  have logging := Action.Respects.bind
    (quiet_log (by decide : LogLevel.info ≠ .error) "%s execution time %ss"
      [.text program, .text "0.000"])
    fun _ => .pure (plan.result executor.totalDuration timeout)
  rw [Action.after_congr begun, Action.after_bind_of_ok supervised]
  exact (quiet.trans_reports report).trans_quiet (logging ended)

/-- A run that starts no program reports nothing. -/
theorem run_quiet (linked : world.Linked) (present : world.executors.get? ref = some executor)
    (unstarted : executor.cancelled = true ∨ ¬ world.Starts) (program : String)
    (rest : List String) (timeout : Value) :
    world.Quiet ((run ref (program :: rest) timeout).after world) := by
  cases cancelled : executor.cancelled with
  | true =>
    have begun : run ref (program :: rest) timeout world =
        (do emit ref .cancelled; return (⟨"", "", cancelledCode⟩ : RunResult)) world := by
      simp only [run, Action.bind_of_ok (read_apply present), cancelled, if_true]
    rw [Action.after_congr begun]
    exact (Action.Respects.bind (quiet_emit ref .cancelled) fun _ => .pure _) world
  | false =>
    have stuck := unstarted.resolve_left (by simp [cancelled])
    obtain ⟨mid, first, begun, quiet⟩ := run_begins linked present cancelled program rest timeout
    have stuck : ¬ mid.Starts := by rwa [Runtime.Starts, first.plans]
    obtain ⟨failure, after, failed, -⟩ := launch_of_not_starts stuck (program :: rest)
    rw [Action.after_congr begun, Action.after_bind_of_error failed]
    exact quiet.trans ((quiet_launch _).atomic failed)

/-- What a run of an executor has announced and what error messages it has added to the journal,
given its outcome and the state that it leaves. -/
structure RunReport (world : Runtime) (executor : Executor) (program : String) (timeout : Value)
    (outcome : Except Failure RunResult) (after : Runtime) (events : List RunEvent)
    (added : List String) : Prop where
  told : after.events = world.events ++ announced executor.listeners events
  cancelled : .cancelled ∈ events ↔
    executor.cancelled = true ∨ 0 < world.requests executor.listeners events.dropLast
  logged : after.journal.messages .error =
    world.journal.messages .error ++ added.map world.journal.taken
  of_cancelled : .cancelled ∈ events → added = []
  of_failure : ∀ failure, outcome = .error failure → added = []
  of_success : ∀ result, outcome = .ok result → .cancelled ∉ events → result.exitCode = 0 →
    added = []
  of_exit : ∀ result, outcome = .ok result → .cancelled ∉ events → result.exitCode ≠ 0 →
    ∃ plan captured, world.plans.head? = some plan ∧
      captured = (Progress.linesRead executor.totalDuration plan.stderr).map dropLineFeeds ++
        (if plan.expires timeout then ["Process timed out"] else []) ∧
      result.stderr = "\n".intercalate captured ∧
      IsFailureReport program captured result.exitCode added

/-- A run that was cancelled before tells so and logs nothing. -/
theorem runReport_cancelled (linked : world.Linked)
    (present : world.executors.get? ref = some executor) (cancelled : executor.cancelled = true)
    (enabled : world.journal.records? .error = true) (program : String) (rest : List String)
    (timeout : Value) :
    RunReport world executor program timeout ((run ref (program :: rest) timeout).outcome world)
      ((run ref (program :: rest) timeout).after world) [.cancelled] [] := by
  obtain ⟨after, returned, said⟩ :=
    run_cancelled linked present cancelled (List.cons_ne_nil program rest) timeout
  have quiet := run_quiet linked present (.inl cancelled) program rest timeout
  rw [Action.after_of_ok returned] at quiet ⊢
  refine ⟨said.events, by simp [cancelled], ?_, fun _ => rfl, fun _ _ => rfl, fun _ _ _ _ => rfl,
    fun _ _ uncancelled => absurd (List.mem_singleton_self _) uncancelled⟩
  rw [quiet.added, enabled]
  rfl

/-- A run whose program cannot be started tells of its start and logs nothing. -/
theorem runReport_stuck (linked : world.Linked)
    (present : world.executors.get? ref = some executor) (active : executor.cancelled = false)
    (stuck : ¬ world.Starts) (enabled : world.journal.records? .error = true) (program : String)
    (rest : List String) (timeout : Value) :
    RunReport world executor program timeout ((run ref (program :: rest) timeout).outcome world)
      ((run ref (program :: rest) timeout).after world) [.started] [] := by
  obtain ⟨failure, mid, after, failed, said, -, -, told⟩ :=
    run_stuck linked present active stuck (List.cons_ne_nil program rest) timeout
  have quiet := run_quiet linked present (.inr stuck) program rest timeout
  rw [Action.after_of_error failed] at quiet ⊢
  rw [Action.outcome_of_error failed]
  refine ⟨told.trans said.events, by simp [active], ?_, fun _ => rfl, fun _ _ => rfl,
    fun _ _ _ _ => rfl, fun _ returned => by cases returned⟩
  rw [quiet.added, enabled]
  rfl

/-- A run of a planned program reports the failure of the program unless it is cancelled. -/
theorem runReport_planned (linked : world.Linked)
    (present : world.executors.get? ref = some executor) (active : executor.cancelled = false)
    {plan : ChildPlan} {plans : List ChildPlan} (planned : world.plans = plan :: plans)
    (sound : plan.fault = none) (enabled : world.journal.records? .error = true)
    (program : String) (rest : List String) (timeout : Value) :
    RunReport world executor program timeout ((run ref (program :: rest) timeout).outcome world)
      ((run ref (program :: rest) timeout).after world) (world.course executor plan timeout)
      (endReport
        (decide (0 < world.requests executor.listeners (plan.underway executor.totalDuration)))
        program (plan.captured executor.totalDuration timeout)
        (plan.result executor.totalDuration timeout).exitCode) := by
  obtain ⟨after, returned, ran⟩ :=
    run_planned linked present active planned sound (List.cons_ne_nil program rest) timeout
  have report := run_reports linked present active planned sound program rest timeout
  rw [Action.after_of_ok returned] at report ⊢
  rw [Action.outcome_of_ok returned]
  have told := cancelled_mem_course world executor plan timeout
  have asked : .cancelled ∈ world.course executor plan timeout ↔
      decide (0 < world.requests executor.listeners (plan.underway executor.totalDuration)) =
        true := by
    rw [told, world.course_concat, List.dropLast_concat, decide_eq_true_iff]
  refine ⟨ran.events, by simpa [active] using told, by simpa [enabled] using report.added, ?_,
    fun _ failed => (by cases failed), ?_, ?_⟩
  · intro cancelled
    simp [endReport, asked.1 cancelled]
  · intro result same _ zero
    cases same
    simp [endReport, zero]
  · intro result same uncancelled failed
    cases same
    refine ⟨plan, plan.captured executor.totalDuration timeout, by rw [planned]; rfl,
      plan.captured_eq _ _, rfl, ?_⟩
    rw [asked, Bool.not_eq_true] at uncancelled
    rw [uncancelled]
    exact isFailureReport_endReport failed program _

/-- **What a run reports.** Whatever calls have been made, and with errors being recorded, a run
that is cancelled, that fails to start its program, or whose program succeeds, logs no error. When
the program fails, the error messages of the run are its exit code and the last twenty of the error
lines that the result joins, the line that tells of the time limit included; each is logged whole up
to 120 characters, and cut there otherwise. Safe logging changes nothing but line breaks. -/
theorem run_errorMessages (reached : world.Reached)
    (present : world.executors.get? ref = some executor)
    (enabled : world.journal.records? .error = true) (program : String) (rest : List String)
    (timeout : Value) :
    ∃ (events : List RunEvent) (added : List String),
      RunReport world executor program timeout ((run ref (program :: rest) timeout).outcome world)
        ((run ref (program :: rest) timeout).after world) events added := by
  have linked := reached.linked
  cases cancelled : executor.cancelled with
  | true => exact ⟨_, _, runReport_cancelled linked present cancelled enabled program rest timeout⟩
  | false =>
    by_cases starts : world.Starts
    · obtain ⟨plan, next, sound⟩ := starts
      obtain ⟨plans, planned⟩ := List.head?_eq_some_iff.1 next
      exact ⟨_, _,
        runReport_planned linked present cancelled planned sound enabled program rest timeout⟩
    · exact ⟨_, _,
        runReport_stuck linked present cancelled starts enabled program rest timeout⟩

/-- A program that hangs after a line of 121 characters. -/
def overlong : ChildPlan := ⟨[], [String.ofList (List.replicate 121 '-')], 0, true, false, none⟩

theorem run_errorMessages_overlong :
    ((run ⟨0⟩ ["ffmpeg"] (.int 5)).after
      (ExecutorCall.afterCalls [.prepare overlong, .enter none] .initial)).journal.messages .error =
      ["ffmpeg exited with code -9", String.ofList (List.replicate 120 '-') ++ "...",
        "Process timed out"] := by
  have reached : (ExecutorCall.afterCalls [.prepare overlong, .enter none] .initial).Reached :=
    ⟨_, rfl⟩
  have present : (ExecutorCall.afterCalls [.prepare overlong, .enter none] .initial).executors.get?
    ⟨0⟩ = some (fresh none) := rfl
  obtain ⟨events, added, report⟩ :=
    run_errorMessages reached present (by decide) "ffmpeg" [] (.int 5)
  obtain ⟨after, returned, -⟩ := run_planned reached.linked present rfl rfl rfl
    (List.cons_ne_nil "ffmpeg" []) (.int 5)
  -- Nobody listens, so nobody cancels.
  have untold : .cancelled ∉ events := by simp [report.cancelled, fresh]
  obtain ⟨plan, captured, next, lines, -, tail, last, length, rfl⟩ :=
    report.of_exit _ (Action.outcome_of_ok returned) untold (by decide)
  cases next
  have kept : captured = [String.ofList (List.replicate 121 '-'), "Process timed out"] :=
    lines.trans (by decide +kernel)
  have whole : tail = captured := last.eq_of_length (by rw [length, kept]; rfl)
  rw [report.logged, whole, kept]
  decide +kernel

end Executor

end MediaCommand
