import MediaCommand.Proofs.Execution.Telling

/-!
# Why a run fails

Handing a line over fails for three reasons: the line is empty, an object is missing, or the program
does not start (`RunFault`). Nothing that goes on once a program has started adds a reason: lines
that cannot be read only end the reading, and every message can be written. The lemmas follow the
steps of a run, from those of the executor up to `failsOnly_run`.
-/

namespace MediaCommand

open MediaCommand.Action (FailsOnly)

/-- The reasons why a run fails. -/
inductive RunFault : Failure → Prop where
  | emptyCommand : RunFault .emptyCommand
  | noObject : RunFault .noObject
  | launch (fault : LaunchFault) (message : String) : RunFault (.launch fault message)

namespace Executor

variable {ref : Ref .executor}

theorem failsOnly_read : FailsOnly RunFault (read ref) := .require .noObject _

theorem failsOnly_change (f : Executor → Executor) : FailsOnly RunFault (change ref f) :=
  .bind failsOnly_read fun _ => .modify _

theorem failsOnly_changeChild (child : Ref .child) (f : Child → Child) :
    FailsOnly RunFault (changeChild child f) :=
  .get_bind fun _ => .bind (.object .noObject _) fun _ => .modify _

/-- A message whose template fits its arguments can be written. -/
theorem failsOnly_log {template : String} {arguments : List Value}
    (fillable : Fillable template arguments) (level : LogLevel) :
    FailsOnly RunFault (log level template arguments) :=
  .of_returns fun world => by
    obtain ⟨journal, done⟩ := log_apply fillable level world
    exact ⟨_, _, done⟩

theorem failsOnly_stop (child : Ref .child) : FailsOnly RunFault (stop child) := by
  refine .get_bind fun _ => .bind (.object .noObject _) fun found =>
    .bind (failsOnly_changeChild child _) fun _ => ?_
  split
  · exact failsOnly_changeChild child _
  · exact .pure _

theorem failsOnly_cancel : FailsOnly RunFault (cancel ref) := by
  refine .bind (failsOnly_change _) fun _ => .bind failsOnly_read fun executor => ?_
  split
  · exact failsOnly_stop _
  · exact .pure _

theorem failsOnly_tell (event : RunEvent) (listeners : List Listener) :
    FailsOnly RunFault (tell ref event listeners) := by
  induction listeners with
  | nil => exact .pure _
  | cons listener rest ih =>
    refine .bind (.modify _) fun _ => .get_bind fun world => ?_
    dsimp only
    split
    · exact .bind failsOnly_cancel fun _ => ih
    · exact ih

theorem failsOnly_emit (event : RunEvent) : FailsOnly RunFault (emit ref event) :=
  .bind failsOnly_read fun _ => failsOnly_tell event _

theorem failsOnly_launch (line : List String) : FailsOnly RunFault (launch line) := by
  refine .bind (.modify _) fun _ => .get_bind fun world => ?_
  split
  · exact .throw (.launch _ _)
  · refine .bind (.of_returns fun _ => ⟨_, _, rfl⟩) fun _ => ?_
    split
    · exact .throw (.launch _ _)
    · exact .bind (.modify _) fun _ => .pure _

theorem failsOnly_readErrors (lines : List String) :
    FailsOnly RunFault (readErrors ref lines) := by
  induction lines with
  | nil => exact .pure _
  | cons line rest ih =>
    unfold readErrors
    dsimp only
    split
    · refine .bind failsOnly_read fun executor => ?_
      split
      · exact .bind (failsOnly_emit _) fun _ => .bind ih fun _ => .pure _
      · exact .pure _
    · exact .bind ih fun _ => .pure _

theorem failsOnly_wait (child : Ref .child) (plan : ChildPlan) (timeout : Value) :
    FailsOnly RunFault (wait child plan timeout) := by
  unfold wait
  split
  · exact .pure _
  · split
    · exact .bind (failsOnly_changeChild child _) fun _ => .pure _
    · exact .pure _

theorem failsOnly_logLines (lines : List String) :
    FailsOnly RunFault (logFailure.logLines lines) := by
  induction lines with
  | nil => exact .pure _
  | cons line rest ih => exact .bind (failsOnly_log ⟨⟨_, rfl⟩, _, rfl⟩ _) fun _ => ih

theorem failsOnly_conclude (program : String) (errors : List String) (result : RunResult) :
    FailsOnly RunFault (conclude ref program errors result) := by
  refine .bind failsOnly_read fun executor => ?_
  split
  · exact failsOnly_emit _
  · split
    · exact failsOnly_emit _
    · exact .bind (.bind (failsOnly_log ⟨⟨_, rfl⟩, _, rfl⟩ _) fun _ => failsOnly_logLines _)
        fun _ => failsOnly_emit _

theorem failsOnly_supervise (program : String) (child : Ref .child) (timeout : Value) :
    FailsOnly RunFault (supervise ref program child timeout) :=
  .bind (failsOnly_change _) fun _ => .get_bind fun _ => .bind (.object .noObject _) fun _ =>
    .bind (failsOnly_readErrors _) fun _ => .bind (failsOnly_wait child _ timeout) fun _ =>
      .bind (failsOnly_conclude program _ _) fun _ => .pure _

/-- A run fails for want of a line, of an object or of a program, whatever its listeners do. -/
theorem failsOnly_run (line : List String) (timeout : Value) :
    FailsOnly RunFault (run ref line timeout) := by
  unfold run
  split
  · exact .throw .emptyCommand
  · refine .bind failsOnly_read fun executor => ?_
    split
    · exact .bind (failsOnly_emit _) fun _ => .pure _
    · exact .bind (failsOnly_log ⟨⟨_, rfl⟩, _, rfl⟩ _) fun _ =>
        .bind (failsOnly_emit _) fun _ => .bind (failsOnly_launch _) fun child =>
          .bind (failsOnly_supervise _ child timeout) fun _ =>
            .bind (failsOnly_log ⟨⟨_, rfl⟩, _, rfl⟩ _) fun _ => .pure _

end Executor

end MediaCommand
