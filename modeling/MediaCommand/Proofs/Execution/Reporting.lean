import MediaCommand.Execution.Executor
import MediaCommand.Proofs.Log.Messages

/-!
# What is reported of a failure

Only the end of a run reports errors, and only of a program that failed without a request for
cancellation (`Executor.endReport`). Every other step of an executor is quiet: whatever listeners do,
the error messages stay as they are.
-/

namespace MediaCommand

open MediaCommand.Action

variable {before mid after : Runtime} {messages : List String}

namespace Runtime

/-- Between two states of the world lie these error messages. -/
def Reports (before : Runtime) (messages : List String) (after : Runtime) : Prop :=
  before.journal.Reports messages after.journal

/-- Between two states of the world lie no error messages. -/
def Quiet (before after : Runtime) : Prop := before.Reports [] after

theorem Quiet.of_journal (same : after.journal = before.journal) : Quiet before after := by
  rw [Quiet, Reports, same]
  exact .nothing _

theorem Quiet.trans_reports (start : Quiet before mid) (next : mid.Reports messages after) :
    before.Reports messages after := Journal.Reports.trans start next

theorem Quiet.trans (first : Quiet before mid) (second : Quiet mid after) : Quiet before after :=
  first.trans_reports second

instance : IsPreorder Runtime Quiet where
  refl _ := .of_journal rfl
  trans _ _ _ := .trans

theorem Reports.trans_quiet (start : before.Reports messages mid) (next : Quiet mid after) :
    before.Reports messages after := by
  have both := Journal.Reports.trans start next
  rwa [List.append_nil] at both

end Runtime

namespace Executor

variable {ref : Ref .executor} {world : Runtime}

/-! ## Quiet steps -/

theorem quiet_log {level : LogLevel} (other : level ≠ .error) (template : String)
    (arguments : List Value) : Respects Runtime.Quiet (log level template arguments) :=
  .within_of (Journal.reports_log_of_ne other template arguments) fun _ _ quiet => quiet

theorem quiet_change (ref : Ref .executor) (f : Executor → Executor) :
    Respects Runtime.Quiet (change ref f) :=
  .bind (.require _) fun _ => .modify fun _ => .of_journal rfl

theorem quiet_changeChild (ref : Ref .child) (f : Child → Child) :
    Respects Runtime.Quiet (changeChild ref f) :=
  .get_bind fun world =>
    (Respects.bind (.object _) fun _ => .modify fun _ => .of_journal rfl) world

theorem quiet_stop (child : Ref .child) : Respects Runtime.Quiet (stop child) := by
  refine .get_bind fun world => (Respects.bind (.object _) fun known => ?_) world
  refine .bind (quiet_changeChild child _) fun _ => ?_
  split
  · exact quiet_changeChild child _
  · exact .pure _

theorem quiet_cancel (ref : Ref .executor) : Respects Runtime.Quiet (cancel ref) := by
  refine .bind (quiet_change ref _) fun _ => .bind (.require _) fun user => ?_
  split
  · exact quiet_stop _
  · exact .pure _

theorem quiet_tell (ref : Ref .executor) (event : RunEvent) (listeners : List Listener) :
    Respects Runtime.Quiet (tell ref event listeners) := by
  induction listeners with
  | nil => exact .pure _
  | cons listener rest ih =>
    refine .bind (.modify fun _ => .of_journal rfl) fun _ => .get_bind fun world => ?_
    split
    · exact (Respects.bind (quiet_cancel ref) fun _ => ih) world
    · exact ih world

theorem quiet_emit (ref : Ref .executor) (event : RunEvent) : Respects Runtime.Quiet (emit ref event) :=
  .bind (.require _) fun user => quiet_tell ref event user.listeners

theorem quiet_readErrors (ref : Ref .executor) (lines : List String) :
    Respects Runtime.Quiet (readErrors ref lines) := by
  induction lines with
  | nil => exact .pure _
  | cons line rest ih =>
    have goesOn : Respects Runtime.Quiet (return dropLineFeeds line :: (← readErrors ref rest)) :=
      .bind ih fun _ => .pure _
    rw [readErrors]
    split
    · refine .bind (.require _) fun user => ?_
      split
      · exact .bind (quiet_emit ref _) fun _ => goesOn
      · exact .pure _
    · exact goesOn

theorem quiet_wait (child : Ref .child) (plan : ChildPlan) (timeout : Value) :
    Respects Runtime.Quiet (wait child plan timeout) := by
  unfold wait
  split
  · exact .pure _
  · split
    · exact .bind (quiet_changeChild child _) fun _ => .pure _
    · exact .pure _

theorem quiet_launch (command : List String) : Respects Runtime.Quiet (launch command) := by
  refine .bind (.modify fun _ => .of_journal rfl) fun _ => .get_bind fun world => ?_
  split
  · exact refl world
  · next plan plans _ =>
    cases fault : plan.fault <;> exact .of_journal rfl

/-! ## The end of a run -/

/-- A line as it is logged: the whole line, or the first 120 characters and three dots. -/
def reportedLine (line : String) : String :=
  if line.length ≤ 120 then line else String.ofList (line.toList.take 120) ++ "..."

/-- What is reported of a failed program: its exit code, then the last of its error lines. -/
def failureReport (program : String) (errors : List String) (exitCode : Int) : List String :=
  (program ++ " exited with code " ++ toString exitCode) ::
    (errors.drop (errors.length - tailLength)).map reportedLine

/-- What is reported at the end of a run, cancelled or not. -/
def endReport (cancelled : Bool) (program : String) (errors : List String) (exitCode : Int) :
    List String :=
  if cancelled = true ∨ exitCode = 0 then [] else failureReport program errors exitCode

theorem truncated_line (line : String) :
    String.ofList (truncated lineLimit line.toList) = reportedLine line := by
  unfold truncated reportedLine
  by_cases short : line.length ≤ 120
  · have whole : ¬ lineLimit < line.toList.length := by
      rw [lineLimit, String.length_toList]
      omega
    rw [if_neg whole, if_pos short, String.ofList_toList]
  · have long : lineLimit < line.toList.length := by
      rw [lineLimit, String.length_toList]
      omega
    rw [if_pos long, if_neg short, String.ofList_append]
    rfl

/-- An error is logged with the message that it comes to. -/
theorem log_reports {template : String} {arguments : List Value} {message : String}
    (comesTo : ComesTo template arguments message) (world : Runtime) :
    ∃ after, log .error template arguments world = .ok () after ∧
      world.Reports [message] after := by
  have logged := Journal.log_apply comesTo .error world.journal
  have reports := Journal.reports_log comesTo world.journal
  rw [after_of_ok logged] at reports
  exact ⟨_, within_of_ok logged, reports⟩

theorem logLines_reports (lines : List String) (world : Runtime) :
    ∃ after, logFailure.logLines lines world = .ok () after ∧
      world.Reports (lines.map reportedLine) after := by
  induction lines generalizing world with
  | nil => exact ⟨world, rfl, .nothing _⟩
  | cons line rest ih =>
    obtain ⟨mid, logged, first⟩ := log_reports (comesTo_line (reportedLine line)) world
    obtain ⟨after, done, second⟩ := ih mid
    rw [← truncated_line] at logged
    exact ⟨after, (bind_of_ok logged).trans done, first.trans second⟩

theorem logFailure_reports (program : String) (errors : List String) (exitCode : Int)
    (world : Runtime) :
    ∃ after, logFailure program errors exitCode world = .ok () after ∧
      world.Reports (failureReport program errors exitCode) after := by
  obtain ⟨mid, logged, first⟩ := log_reports (comesTo_exited program exitCode) world
  obtain ⟨after, done, second⟩ := logLines_reports _ mid
  exact ⟨after, (bind_of_ok logged).trans done, first.trans second⟩

/-- The end of a run reports a failure unless the executor is cancelled. -/
theorem conclude_reports {executor : Executor}
    (present : world.executors.get? ref = some executor) (program : String)
    (errors : List String) (result : RunResult) :
    world.Reports (endReport executor.cancelled program errors result.exitCode)
      ((conclude ref program errors result).after world) := by
  have read : read ref world = .ok executor world := require_of_some present
  rw [conclude, after_bind_of_ok read, endReport]
  cases executor.cancelled with
  | true => exact quiet_emit ref .cancelled world
  | false =>
    by_cases zero : result.exitCode = 0
    · simp only [zero, or_true, if_true, Bool.false_eq_true, if_false]
      exact quiet_emit ref _ world
    · obtain ⟨mid, logged, reports⟩ := logFailure_reports program errors result.exitCode world
      simp only [zero, or_self, Bool.false_eq_true, if_false]
      rw [after_bind_of_ok logged]
      exact reports.trans_quiet (quiet_emit ref _ mid)

end Executor

end MediaCommand
