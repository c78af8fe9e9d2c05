import MediaCommand.Proofs.Execution.ErrorLines
import MediaCommand.Proofs.Execution.Pipes

/-!
# The outcome of a run

What comes out of a run that nobody cancels, when all of its progress can be read: its exit code,
the signals that its child gets, the texts of both outputs and the events. `run_outcome` says it all
from the plan of the program and the time limit.
-/

namespace MediaCommand

theorem ChildPlan.expires_iff (plan : ChildPlan) (timeout : Value) :
    plan.expires timeout = true ↔ plan.hangs = true ∧ timeout ≠ .null := by
  cases timeout <;> simp [expires]

theorem Runtime.requests_le_append (world : Runtime) (listeners : List Listener)
    (first second : List RunEvent) :
    world.requests listeners first ≤ world.requests listeners (first ++ second) := by
  let mid : Runtime := { world with events := world.events ++ announced listeners first }
  rw [requests_append (show mid.events = _ from rfl) second]
  exact Nat.le_add_right _ _

namespace ChildPlan

variable {plan : ChildPlan} {duration : Option String} {timeout : Value}

/-- The output of a program comes back without its last feed. -/
theorem stdout_result {text : String} (written : plan.stdout = pipeLines text) :
    (plan.result duration timeout).stdout = dropFinalFeed text := by
  rw [← intercalate_pipeLines, ← written]
  rfl

/-- The errors of a program come back like its output, or, when it came to its limit, as lines with
one more behind them. -/
theorem stderr_result {text : String} (written : plan.stderr = pipeLines text)
    (readable : ∀ line ∈ plan.stderr, Progress.Readable duration line) :
    (plan.result duration timeout).stderr =
      if plan.expires timeout then
        "\n".intercalate ((pipeLines text).map dropFinalFeed ++ ["Process timed out"])
      else dropFinalFeed text := by
  have kept := (plan.stderr_eq_errorText_iff duration timeout).2 fun line mem =>
    readable line (List.dropLast_subset _ mem)
  rw [kept, errorText, written]
  split
  · rw [map_pipeLines]
    rfl
  · rw [List.append_nil, intercalate_pipeLines]

end ChildPlan

/-- Where nobody asks to cancel, the result says how a run ends. -/
theorem Runtime.course_of_unasked {world : Runtime} {executor : Executor} {plan : ChildPlan}
    {timeout : Value}
    (unasked : world.requests executor.listeners (world.course executor plan timeout) = 0) :
    world.course executor plan timeout = plan.underway executor.totalDuration ++
      [if (plan.result executor.totalDuration timeout).exitCode = 0 then
        .completed (plan.result executor.totalDuration timeout)
      else .failed (plan.result executor.totalDuration timeout)] := by
  have before : world.requests executor.listeners (plan.underway executor.totalDuration) = 0 := by
    rw [world.course_concat] at unasked
    exact Nat.le_zero.1 (unasked ▸ world.requests_le_append executor.listeners _ _)
  simp [world.course_concat, before, Executor.closing]

namespace Executor

variable {ref : Ref .executor} {executor : Executor} {world : Runtime}

/-- **The outcome of a run that is not cancelled.** Whatever calls have been made, when every error
line of the program that is started can be read and the executor is not cancelled in the end: the
run comes to its limit exactly when the program hangs and there is a limit. Its child is killed once
if it does and gets no signal otherwise. Exit code, outputs and events are those of the program, or
tell of the limit. -/
theorem run_outcome (reached : world.Reached) (present : world.executors.get? ref = some executor)
    {plan : ChildPlan} (next : world.plans.head? = some plan) (sound : plan.fault = none)
    (readable : ∀ line ∈ plan.stderr, Progress.Readable executor.totalDuration line)
    {command : List String} (nonempty : command ≠ []) (timeout : Value)
    (uncancelled : ∀ user, ((run ref command timeout).after world).executors.get? ref = some user →
      user.cancelled = false) :
    ∃ (result : RunResult) (after : Runtime) (reports : List Progress) (timedOut : Bool),
      run ref command timeout world = .ok result after ∧
      (timedOut = true ↔ plan.hangs = true ∧ timeout ≠ .null) ∧
      result.exitCode = (if timedOut then -9 else plan.exitCode) ∧
      after.children.get? world.children.next = some ⟨plan, 0, if timedOut then 1 else 0⟩ ∧
      (∀ text, plan.stdout = pipeLines text → result.stdout = dropFinalFeed text) ∧
      (∀ text, plan.stderr = pipeLines text → result.stderr =
        if timedOut then
          "\n".intercalate ((pipeLines text).map dropFinalFeed ++ ["Process timed out"])
        else dropFinalFeed text) ∧
      (plan.stderr.filter reportsProgress).map (Progress.ofLine · executor.totalDuration) =
        reports.map .ok ∧
      after.events = world.events ++ announced executor.listeners (.started ::
        (reports.map .progress ++
          [if result.exitCode = 0 then .completed result else .failed result])) := by
  have linked := reached.linked
  have active : executor.cancelled = false := by
    cases cancelled : executor.cancelled with
    | false => rfl
    | true =>
      obtain ⟨after, ran, said⟩ := run_cancelled linked present cancelled nonempty timeout
      rw [Action.after_of_ok ran] at uncancelled
      have still := uncancelled _ said.marked
      simp [asked, cancelled] at still
  obtain ⟨plans, planned⟩ := List.head?_eq_some_iff.1 next
  obtain ⟨after, returned, ran⟩ :=
    run_planned linked present active planned sound nonempty timeout
  rw [Action.after_of_ok returned] at uncancelled
  -- A request would have left its mark on the executor.
  have unasked : world.requests executor.listeners (world.course executor plan timeout) = 0 := by
    have still := uncancelled _ ran.marked
    simpa [asked, active] using still
  have unsignalled : after.children.get? world.children.next =
      some ⟨plan, 0, if plan.expires timeout then 1 else 0⟩ := by
    rw [ran.child, unasked, Nat.zero_sub, Child.stopped_zero]
    cases plan.expires timeout <;> rfl
  refine ⟨_, after, _, plan.expires timeout, returned, plan.expires_iff timeout, rfl, unsignalled,
    fun text written => ChildPlan.stdout_result written,
    fun text written => ChildPlan.stderr_result written readable,
    Progress.reports_of_readable readable, ?_⟩
  rw [ran.events, Runtime.course_of_unasked unasked]
  rfl

/-- A program that hangs after it has reported progress, and a listener that never cancels. -/
def stalled : List ExecutorCall :=
  [.prepare ⟨["ready\n"], ["frame=1\n"], 0, true, false, none⟩, .enter none,
    .register ⟨0⟩ (Listener.cancelsOn none)]

/-- It is killed once, and the listener is told that it started, one report and that it failed. -/
theorem run_outcome_stalled :
    ∃ result after progress,
      run ⟨0⟩ ["ffmpeg"] (.int 5) (ExecutorCall.afterCalls stalled .initial) = .ok result after ∧
      result = ⟨"ready", "frame=1\nProcess timed out", -9⟩ ∧
      after.children.get? ⟨0⟩ =
        some ⟨⟨["ready\n"], ["frame=1\n"], 0, true, false, none⟩, 0, 1⟩ ∧
      progress.frame = some 1 ∧
      after.events = [(0, .started), (0, .progress progress), (0, .failed result)] := by
  have present : (ExecutorCall.afterCalls stalled .initial).executors.get? ⟨0⟩ =
    some ⟨none, [⟨0, Listener.cancelsOn none⟩], false, none⟩ := rfl
  have next : (ExecutorCall.afterCalls stalled .initial).plans.head? =
    some ⟨["ready\n"], ["frame=1\n"], 0, true, false, none⟩ := rfl
  let progress : Progress := ⟨some 1, none, none, none, none, none, none, none⟩
  have read : Progress.ofLine "frame=1\n" none = .ok progress := by decide +kernel
  have readable : ∀ line ∈ ["frame=1\n"], Progress.Readable none line := by
    intro line mem _
    obtain rfl := List.mem_singleton.1 mem
    exact ⟨progress, read⟩
  have going : (((run ⟨0⟩ ["ffmpeg"] (.int 5)).after
      (ExecutorCall.afterCalls stalled .initial)).executors.get? ⟨0⟩).map Executor.cancelled =
        some false := by
    decide +kernel
  obtain ⟨⟨stdout, stderr, exitCode⟩, after, reports, timedOut, returned, limit, code, child,
      output, errors, told, events⟩ :=
    run_outcome ⟨stalled, rfl⟩ present next rfl readable (List.cons_ne_nil "ffmpeg" []) (.int 5)
      (fun user found => by simpa [found] using going)
  obtain rfl : timedOut = true := limit.2 ⟨rfl, by simp⟩
  have reporting : reportsProgress "frame=1\n" = true := by decide
  have single : reports = [progress] := by
    refine List.map_injective_iff.2 (fun _ _ => Except.ok.inj) (told.symm.trans ?_)
    rw [List.filter_cons_of_pos reporting, List.filter_nil, List.map_singleton, List.map_singleton,
      read]
  have ended : ¬exitCode = 0 := by
    rw [show exitCode = -9 from code]
    decide
  refine ⟨_, after, progress, returned, ?_, child, rfl, ?_⟩
  · have written : stdout = "ready" := (output "ready\n" (by decide)).trans (by decide)
    have kept : stderr = "frame=1\nProcess timed out" :=
      (errors "frame=1\n" (by decide)).trans (by decide)
    rw [written, kept]
    exact congrArg _ code
  · rw [events, single, if_neg ended]
    rfl

end Executor

end MediaCommand
