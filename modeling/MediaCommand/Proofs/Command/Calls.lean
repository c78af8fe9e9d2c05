import MediaCommand.Command.Run
import MediaCommand.Proofs.Command.Edits

/-!
# Calls on a command

`OptionCall` lists the calls that only work on the arguments of an encoder command, `CommandCall`
all that a caller may do with one between building it and writing its output, in any order. Calls
that fail count, with the state they leave. Whatever the calls are, the program stays and the
arguments result from touches of those before (`builds_calls`), so an invariant of argument lists
is one of every command that calls can reach.
-/

namespace MediaCommand

open MediaCommand.Action (Respects)

/-- A command as it was, but for changes of its arguments. -/
def Session.Builds (ref : Ref .command) (before after : Session) : Prop :=
  ∀ command, before.commands.get? ref = some command →
    ∃ list, command.arguments.Edited list ∧
      after.commands.get? ref = some { command with arguments := list }

instance (ref : Ref .command) : IsPreorder Session (Session.Builds ref) where
  refl _ command present := ⟨command.arguments, .refl, present⟩
  trans _ _ _ first second command present := by
    obtain ⟨list, edited, present⟩ := first command present
    obtain ⟨last, further, present⟩ := second _ present
    exact ⟨last, edited.trans further, present⟩

/-- A command as it was. -/
def Session.Keeps (ref : Ref .command) (before after : Session) : Prop :=
  ∀ command, before.commands.get? ref = some command → after.commands.get? ref = some command

instance (ref : Ref .command) : IsPreorder Session (Session.Keeps ref) where
  refl _ _ present := present
  trans _ _ _ first second command present := second command (first command present)

/-- The workspace and the commands as they were. -/
def Session.SameObjects (before after : Session) : Prop :=
  after.workspace = before.workspace ∧ after.commands = before.commands

instance : IsPreorder Session Session.SameObjects where
  refl _ := ⟨rfl, rfl⟩
  trans _ _ _ first second := ⟨second.1.trans first.1, second.2.trans first.2⟩

theorem Session.SameObjects.keeps {ref : Ref .command} {before after : Session}
    (same : before.SameObjects after) : before.Keeps ref after := fun _ present =>
  same.2 ▸ present

theorem Session.Keeps.builds {ref : Ref .command} {before after : Session}
    (keeps : before.Keeps ref after) : before.Builds ref after := fun command present =>
  ⟨command.arguments, .refl, keeps command present⟩

namespace Command

variable {ref : Ref .command}

/-! ## Edits in a session -/

/-- The session after work on the arguments of a command. -/
def settled (s : Session) (ref : Ref .command) (command : Command) (desk : ArgumentList.Desk) :
    Session :=
  { s with
    workspace := { s.workspace with tokens := desk.tokens }
    commands := s.commands.put ref { command with arguments := desk.list } }

theorem edit_apply {α : Type} {s : Session} {command : Command}
    (present : s.commands.get? ref = some command) (edit : ArgumentList.Edit α) :
    Command.edit ref edit s =
      Action.within (fun _ => ⟨s.workspace.tokens, command.arguments⟩)
        (fun desk _ => settled s ref command desk) edit s := by
  have read : ArgumentList.read (.ofCommand ref) s = .ok command.arguments s := by
    simp only [ArgumentList.read, Action.get_bind_apply, present]
    rfl
  simp only [Command.edit, ArgumentList.run, Action.bind_of_ok read, Action.within,
    ArgumentList.write?, present, settled]

theorem get?_settled {s : Session} {command : Command}
    (present : s.commands.get? ref = some command) (desk : ArgumentList.Desk) :
    (settled s ref command desk).commands.get? ref =
      some { command with arguments := desk.list } :=
  Store.get?_put_self present

theorem builds_edit {α : Type} {edit : ArgumentList.Edit α} (edits : ArgumentList.Edits edit) :
    Respects (Session.Builds ref) (Command.edit ref edit) := by
  intro s command present
  rw [Action.after_congr (edit_apply present edit), Action.after_within]
  exact ⟨_, edits ⟨s.workspace.tokens, command.arguments⟩, get?_settled present _⟩

/-- Work on the arguments of a command changes tokens and commands alone. -/
theorem respects_edit {α : Type} {R : Session → Session → Prop} [IsPreorder Session R]
    (kept : ∀ s tokens commands,
      R s { s with workspace := { s.workspace with tokens }, commands })
    (edit : ArgumentList.Edit α) : Respects R (Command.edit ref edit) := by
  intro s
  cases found : s.commands.get? ref with
  | some command =>
    rw [Action.after_congr (edit_apply found edit), Action.after_within]
    exact kept _ _ _
  | none =>
    have read : ArgumentList.read (.ofCommand ref) s = .error .noObject s := by
      simp only [ArgumentList.read, Action.get_bind_apply, found]
      rfl
    rw [Command.edit, ArgumentList.run, Action.after_bind_of_error read]
    exact refl s

/-! ## Calls that leave the command alone -/

theorem keeps_work {α : Type} (action : Work α) :
    Respects (Session.Keeps ref) (Session.work action) :=
  .within action fun _ _ _ present => present

theorem sameObjects_running {α : Type} (action : Running α) :
    Respects Session.SameObjects (Session.running action) :=
  .within action fun _ _ => ⟨rfl, rfl⟩

theorem sameObjects_limit (timeout : Value) :
    Respects Session.SameObjects (Command.limit timeout) := by
  unfold limit
  split
  · exact .bind (.within _ fun _ _ => ⟨rfl, rfl⟩) fun _ => .pure _
  · exact .pure _

theorem sameObjects_runLine (runner : Runner) (line : List String) (timeout : Value) :
    Respects Session.SameObjects (runLine runner line timeout) := by
  unfold runLine
  split
  · exact sameObjects_running _
  · exact sameObjects_running _
  · exact .bind (.require _) fun recorder =>
      .bind (.modify fun _ => ⟨rfl, rfl⟩) fun _ => .ofExcept _

/-- A recorder keeps the line and answers. -/
theorem runLine_recorder {s : Session} {recorder : Ref .recorder} {told : Recorder}
    (present : s.recorders.get? recorder = some told) (line : List String) (timeout : Value) :
    runLine (.recorder recorder) line timeout s = Action.ofExcept told.answer { s with
      recorders :=
        s.recorders.put recorder { told with calls := told.calls ++ [(line, timeout)] } } := by
  have read : Recorder.read recorder s = .ok told s := Action.require_of_some present
  rw [runLine, Action.bind_of_ok read]
  rfl

/-- A run changes no command and nothing that is made for one. -/
theorem sameObjects_run (other : Ref .command) (runner : Runner) (timeout check : Value) :
    Respects Session.SameObjects (run other runner timeout check) := by
  refine .bind (sameObjects_limit timeout) fun _ => .bind (.require _) fun _ =>
    .bind (sameObjects_runLine _ _ _) fun _ => ?_
  split
  · exact .bind (.throw _) fun _ => .pure _
  · exact .pure _

/-! ## Calls that add options or run the command -/

section Rules

variable {R : Session → Session → Prop} [IsPreorder Session R]

/-- Filters are written under their option, and nothing else happens to the command. -/
theorem respects_setFilters (kept : ∀ s t, s.Keeps ref t → R s t)
    (written : ∀ option text,
      Respects R (Command.edit ref (ArgumentList.write option (.text text))))
    (items : List GraphItem) : Respects R (setFilters ref items) := by
  have work {α : Type} (action : Work α) : Respects R (Session.work action) :=
    (keeps_work action).mono kept
  refine .bind (work _) fun _ => .bind (work _) fun _ => ?_
  split
  · exact .bind (work _) fun _ => written _ _
  · exact .pure _

omit [IsPreorder Session R] in
theorem respects_run (kept : ∀ s t, s.Keeps ref t → R s t) (runner : Runner)
    (timeout check : Value) : Respects R (run ref runner timeout check) :=
  (sameObjects_run ref runner timeout check).mono fun s t same => kept s t same.keeps

theorem respects_runTo (kept : ∀ s t, s.Keeps ref t → R s t) {path : Value}
    (written : Respects R (Command.edit ref (ArgumentList.setOutput path))) (runner : Runner)
    (timeout : Value) : Respects R (runTo ref path runner timeout) :=
  .bind written fun _ => .bind (respects_run kept runner timeout _) fun _ =>
    .bind ((sameObjects_running _).mono fun s t same => kept s t same.keeps) fun _ => .pure _

end Rules

/-- What leaves the command alone builds nothing. -/
theorem builds_of_keeps {α : Type} {action : Step α}
    (keeps : Respects (Session.Keeps ref) action) : Respects (Session.Builds ref) action :=
  keeps.mono fun _ _ kept => kept.builds

theorem builds_setFilters (items : List GraphItem) :
    Respects (Session.Builds ref) (setFilters ref items) :=
  respects_setFilters (fun _ _ kept => kept.builds)
    (fun _ _ => builds_edit (ArgumentList.edits_write _ _)) items

theorem builds_run (runner : Runner) (timeout check : Value) :
    Respects (Session.Builds ref) (run ref runner timeout check) :=
  respects_run (fun _ _ kept => kept.builds) runner timeout check

theorem builds_runTo (path : Value) (runner : Runner) (timeout : Value) :
    Respects (Session.Builds ref) (runTo ref path runner timeout) :=
  respects_runTo (fun _ _ kept => kept.builds) (builds_edit (ArgumentList.edits_setOutput path))
    runner timeout

end Command

/-- A call that works on the arguments of a command and on nothing else. -/
inductive OptionCall where
  | put (key value : Value) (unique quoted : Bool)
  | remove (key : Value)
  | replace (key value : Value)
  | flag (option : CommandFlag)
  | set (option : CommandSetting) (value : Value)
  | overwrite (value : Value)
  | features (flags : List Value)
  | inputs (paths : List Value)
  | codec (name streamType : Value)
  | metadata (key value : Value)
  | map (spec : Value)
  | search (start stop : Value)
  | searchFor (start length : Value)
  | loop
  | size (width height : Value)
  | output (path : Value)

/-- What a call does with the arguments. -/
def OptionCall.edit : OptionCall → ArgumentList.Edit Unit
  | .put key value unique quoted => do let _ ← ArgumentList.put key value unique quoted
  | .remove key => ArgumentList.remove key
  | .replace key value => ArgumentList.replace key value
  | .flag option => ArgumentList.flag option
  | .set option value => ArgumentList.set option value
  | .overwrite value => ArgumentList.setOverwrite value
  | .features flags => ArgumentList.setFeatures flags
  | .inputs paths => ArgumentList.addInputs paths
  | .codec name streamType => ArgumentList.setCodec name streamType
  | .metadata key value => ArgumentList.addMetadata key value
  | .map spec => ArgumentList.addMap spec
  | .search start stop => ArgumentList.setSearch start stop
  | .searchFor start length => ArgumentList.setSearchFor start length
  | .loop => ArgumentList.setLoop
  | .size width height => ArgumentList.setSize width height
  | .output path => ArgumentList.setOutput path

theorem OptionCall.edits_edit (call : OptionCall) : ArgumentList.Edits call.edit := by
  cases call with
  | put key value unique quoted =>
    exact .bind (ArgumentList.edits_put _ _ _ _) fun _ => .pure _
  | remove key => exact ArgumentList.edits_remove _
  | replace key value => exact ArgumentList.edits_replace _ _
  | flag option => exact ArgumentList.edits_write _ _
  | set option value => exact ArgumentList.edits_write _ _
  | overwrite value => exact ArgumentList.edits_setOverwrite _
  | features flags => exact ArgumentList.edits_setFeatures _
  | inputs paths => exact ArgumentList.edits_addInputs _
  | codec name streamType => exact ArgumentList.edits_setCodec _ _
  | metadata key value => exact ArgumentList.edits_addMetadata _ _
  | map spec => exact ArgumentList.edits_addAgain _ _
  | search start stop => exact ArgumentList.edits_setSearch _ _
  | searchFor start length => exact ArgumentList.edits_setSearchFor _ _
  | loop => exact ArgumentList.edits_write _ _
  | size width height => exact ArgumentList.edits_setSize _ _
  | output path => exact ArgumentList.edits_setOutput _

/-- A call on an encoder command. `elsewhere` is anything else that goes on in the session, other
commands being built and run included. -/
inductive CommandCall (ref : Ref .command) where
  | option (call : OptionCall)
  | filters (items : List GraphItem)
  | writeTo (path : Value) (runner : Runner) (timeout : Value)
  | run (runner : Runner) (timeout check : Value)
  | elsewhere (action : Step Unit) (apart : Respects (Session.Keeps ref) action)

namespace CommandCall

variable {ref : Ref .command}

/-- Makes a call on a command. -/
def perform : CommandCall ref → Step Unit
  | .option call => Command.edit ref call.edit
  | .filters items => Command.setFilters ref items
  | .writeTo path runner timeout => do let _ ← Command.runTo ref path runner timeout
  | .run runner timeout check => do let _ ← Command.run ref runner timeout check
  | .elsewhere action _ => action

/-- The session after calls in turn, those that fail included. -/
def afterCalls (calls : List (CommandCall ref)) (s : Session) : Session :=
  calls.foldl (fun s call => call.perform.after s) s

/-- What one call does to the arguments. -/
theorem builds_perform (call : CommandCall ref) : Respects (Session.Builds ref) call.perform := by
  cases call with
  | option call => exact Command.builds_edit call.edits_edit
  | filters items => exact Command.builds_setFilters items
  | writeTo path runner timeout => exact .bind (Command.builds_runTo _ _ _) fun _ => .pure _
  | run runner timeout check => exact .bind (Command.builds_run _ _ _) fun _ => .pure _
  | elsewhere action apart => exact Command.builds_of_keeps apart

/-- What calls in any order and number do to the arguments. -/
theorem builds_calls (calls : List (CommandCall ref)) (s : Session) :
    s.Builds ref (afterCalls calls s) := by
  induction calls generalizing s with
  | nil => exact refl s
  | cons call rest ih => exact trans_of (Session.Builds ref) (builds_perform call s) (ih _)

end CommandCall

end MediaCommand
