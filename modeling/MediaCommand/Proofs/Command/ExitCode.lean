import MediaCommand.Proofs.Command.OutputPlace
import MediaCommand.Proofs.Execution.EventProtocol
import MediaCommand.Settings.Variables

/-!
# What exit codes tell

A run is interrupted when its listeners are told that it was cancelled, or when its program is
killed at the time limit. A run that reaches its limit or was cancelled before it began gets an exit
code of its own, below zero; one that is cancelled while it goes on keeps the exit code of its
program, whatever that is. `run_interrupted_iff` says when an interrupted run has a negative exit
code, and that the exit code alone decides whether a checked call on a command fails.
-/

namespace MediaCommand

/-- The program that is started next comes to its time limit. -/
def Runtime.Expires (world : Runtime) (timeout : Value) : Prop :=
  ∃ plan, world.plans.head? = some plan ∧ plan.expires timeout = true

/-- The program that is started next ends with a negative exit code. -/
def Runtime.Signalled (world : Runtime) : Prop :=
  ∃ plan, world.plans.head? = some plan ∧ plan.exitCode < 0

namespace Executor

variable {ref : Ref .executor} {executor : Executor} {world : Runtime}

/-- The exit code of a run, and when the run says that it was cancelled. -/
theorem run_exitCode (linked : world.Linked) (present : world.executors.get? ref = some executor)
    (runs : executor.cancelled = true ∨ world.Starts) {command : List String}
    (nonempty : command ≠ []) (timeout : Value) :
    ∃ result after events, run ref command timeout world = .ok result after ∧
      after.events = world.events ++ announced executor.listeners events ∧
      (.cancelled ∈ events ↔ executor.cancelled = true ∨
        0 < world.requests executor.listeners events.dropLast) ∧
      (result.exitCode < 0 ↔ executor.cancelled = true ∨ world.Expires timeout ∨
        world.Signalled) := by
  cases cancelled : executor.cancelled with
  | true =>
    obtain ⟨after, ran, said⟩ := run_cancelled linked present cancelled nonempty timeout
    exact ⟨_, after, [.cancelled], ran, said.events, by simp, by simp [cancelledCode]⟩
  | false =>
    obtain ⟨plan, next, sound⟩ := runs.resolve_left (by simp [cancelled])
    obtain ⟨plans, planned⟩ := List.head?_eq_some_iff.1 next
    obtain ⟨after, returned, ran⟩ :=
      run_planned linked present cancelled planned sound nonempty timeout
    refine ⟨_, after, _, returned, ran.events, ?_, ?_⟩
    · simpa using cancelled_mem_course world executor plan timeout
    · have code : (plan.result executor.totalDuration timeout).exitCode =
          if plan.expires timeout then timeoutCode else plan.exitCode := rfl
      cases expires : plan.expires timeout <;>
        simp [code, Runtime.Expires, Runtime.Signalled, next, expires, timeoutCode]

end Executor

/-! ## Checked calls -/

/-- How a checked call on a command ends that got a result: with a failure that names the exit code,
unless that is zero. -/
def Checked {α : Type} (call : Step α) (s : Session) (binary : String) (exitCode : Int)
    (answer : α) : Prop :=
  ∃ t, call s =
    if exitCode = 0 then .ok answer t else .error (.commandFailed binary exitCode) t

namespace Command

variable {ref : Ref .command} {user : Ref .executor} {s t : Session} {given timeout : Value}

/-- The time limit depends on the settings alone and changes nothing else. -/
theorem limit_eq_ok (limited : limit given s = .ok timeout t) (u : Session)
    (same : u.configuration = s.configuration) :
    limit given u = .ok timeout { u with configuration := t.configuration } := by
  cases given with
  | null =>
    obtain ⟨settings, mid, configured, done⟩ := Action.bind_eq_ok.1 limited
    obtain ⟨configuration, loaded, rfl⟩ := Action.within_eq_ok.1 configured
    rw [← same] at loaded
    cases done
    exact Action.bind_of_ok (Action.within_of_ok loaded)
  | _ =>
    cases limited
    rw [← same]
    rfl

variable {line : List String} {result : RunResult} {after : Runtime}

theorem runLine_eq_ok (ran : Executor.run user line timeout s.runtime = .ok result after) :
    runLine (.executor user) line timeout s = .ok result { s with runtime := after } := by
  rw [runLine, Session.running, Action.within_of_ok ran]

/-- A checked run of a command is checked. -/
theorem checked_run {command : Command} (present : s.commands.get? ref = some command)
    (limited : limit given s = .ok timeout t)
    (ran : Executor.run user command.commandLine timeout s.runtime = .ok result after) :
    Checked (run ref (.executor user) given (.bool true)) s command.binary result.exitCode
      result := by
  let handed : Session := { s with configuration := t.configuration }
  have limit : limit given s = .ok timeout handed := limit_eq_ok limited s rfl
  have there : read ref handed = .ok command handed := read_apply present
  have answered := runLine_eq_ok (s := handed) ran
  refine ⟨{ handed with runtime := after }, ?_⟩
  rw [run, Action.bind_of_ok limit, Action.bind_of_ok there, Action.bind_of_ok answered]
  by_cases zero : result.exitCode = 0
  · simp only [zero, ne_eq, not_true_eq_false, decide_false, Bool.and_false, Bool.false_eq_true,
      if_false, if_true]
    rfl
  · simp only [zero, Value.isTruthy, ne_eq, not_false_eq_true, decide_true, Bool.and_self, if_true,
      if_false]
    rfl

/-- Handing over a line that writes to a path is checked. -/
theorem checked_deliver (binary path : String) (limited : limit given s = .ok timeout t)
    (ran : Executor.run user line timeout s.runtime = .ok result after) :
    Checked (deliver binary line (.text path) (.executor user) given) s binary result.exitCode
      (.text path) := by
  let handed : Session := { s with configuration := t.configuration }
  have limit : limit given s = .ok timeout handed := limit_eq_ok limited s rfl
  have answered := runLine_eq_ok (s := handed) ran
  let answer : Session := { handed with runtime := after }
  by_cases zero : result.exitCode = 0
  · have fillable : Executor.Fillable "ffmpeg output written to %s" [.text path] :=
      ⟨⟨_, rfl⟩, _, rfl⟩
    obtain ⟨journal, logged⟩ := Executor.log_apply fillable .info answer.runtime
    let last : Session := { answer with runtime := { after with journal } }
    have reported : Session.log .info "ffmpeg output written to %s" [.text path] answer =
        .ok () last := by
      rw [Session.log, Session.running, Action.within_of_ok logged]
    refine ⟨last, ?_⟩
    rw [deliver, Action.bind_of_ok limit, Action.bind_of_ok answered]
    simp only [zero, ne_eq, not_true_eq_false, if_false, if_true]
    exact Action.bind_of_ok reported
  · refine ⟨answer, ?_⟩
    rw [deliver, Action.bind_of_ok limit, Action.bind_of_ok answered]
    simp only [zero, ne_eq, not_false_eq_true, if_false, if_true]
    rfl

/-- **When an interrupted run has a negative exit code.** Whatever calls have been made, a run that
is not stopped by a program that cannot be started has an exit code below zero when it says that it
was cancelled or comes to its time limit, if and only if the following holds: if it says that it was
cancelled, it was so before it began, comes to its limit, or its program ends with a negative exit
code by itself. A checked call on a command fails with the exit code if that is not zero, and
succeeds otherwise. -/
theorem run_interrupted_iff {s : Session} (reached : s.runtime.Reached) {executor : Executor}
    (present : s.runtime.executors.get? user = some executor)
    (runs : executor.cancelled = true ∨ s.runtime.Starts) {line : List String}
    (nonempty : line ≠ []) (timeout : Value) :
    ∃ result after events, Executor.run user line timeout s.runtime = .ok result after ∧
      after.events = s.runtime.events ++ announced executor.listeners events ∧
      (.cancelled ∈ events ↔ executor.cancelled = true ∨
        0 < s.runtime.requests executor.listeners events.dropLast) ∧
      ((.cancelled ∈ events ∨ executor.cancelled = false ∧ s.runtime.Expires timeout →
          result.exitCode < 0) ↔
        (.cancelled ∈ events → executor.cancelled = true ∨ s.runtime.Expires timeout ∨
          s.runtime.Signalled)) ∧
      ∀ (ref : Ref .command) (command : Command) (given : Value) (t : Session),
        s.commands.get? ref = some command → limit given s = .ok timeout t →
          (command.commandLine = line →
            Checked (run ref (.executor user) given (.bool true)) s command.binary
              result.exitCode result) ∧
          ∀ path, path ≠ "" → (command.writingTo path).commandLine = line →
            Checked (runTo ref (.text path) (.executor user) given) s command.binary
              result.exitCode (.text path) := by
  obtain ⟨result, after, events, ran, told, cancelled, negative⟩ :=
    Executor.run_exitCode reached.linked present runs nonempty timeout
  refine ⟨result, after, events, ran, told, cancelled, ?_, ?_⟩
  · rw [negative]
    constructor
    · intro kept said
      exact kept (.inl said)
    · rintro kept (said | ⟨-, expires⟩)
      · exact kept said
      · exact .inr (.inl expires)
  · intro ref command given t known limited
    constructor
    · rintro rfl
      exact checked_run known limited ran
    · rintro path named rfl
      have settled := limit_eq_ok limited
        (settled s ref command ⟨s.workspace.tokens, (command.writingTo path).arguments⟩) rfl
      obtain ⟨u, delivered⟩ := checked_deliver command.binary path settled ran
      exact ⟨u, (runTo_apply known named _ given).trans delivered⟩

/-- A session with a command for a program that hangs. -/
def hanging : Session :=
  (do Session.running (Executor.plan ⟨[], [], 0, true, false, none⟩)
      let _ ← Session.running (Executor.enter none)
      encoder (.bool true) : Step (Ref .command)).after (.initial Settings.fromVariables)

theorem run_interrupted_hanging :
    ∃ exitCode, exitCode < 0 ∧ ∃ t,
      runTo ⟨0⟩ (.text "b.mp4") (.executor ⟨0⟩) (.int 5) hanging =
        .error (.commandFailed "ffmpeg" exitCode) t := by
  have reached : hanging.runtime.Reached :=
    ⟨[.prepare ⟨[], [], 0, true, false, none⟩, .enter none], rfl⟩
  have present : hanging.runtime.executors.get? ⟨0⟩ = some (.fresh none) := rfl
  have starts : hanging.runtime.Starts := ⟨_, rfl, rfl⟩
  have expires : hanging.runtime.Expires (.int 5) := ⟨_, rfl, rfl⟩
  obtain ⟨result, after, events, -, -, -, negative, checked⟩ :=
    run_interrupted_iff reached present (.inr starts)
      (List.cons_ne_nil "ffmpeg" ["-y", "b.mp4"]) (.int 5)
  have below : result.exitCode < 0 :=
    negative.2 (fun _ => .inr (.inl expires)) (.inr ⟨rfl, expires⟩)
  obtain ⟨t, failed⟩ := (checked ⟨0⟩ _ (.int 5) _ rfl rfl).2 "b.mp4" (by decide) (by decide)
  rw [if_neg (by omega)] at failed
  exact ⟨result.exitCode, below, t, failed⟩

/-- A cancelled run of a program that ends with zero is a success. -/
theorem runTo_cancelled_succeeds :
    (do Session.running (Executor.plan ⟨[], ["frame=1\n"], 0, false, false, none⟩)
        let user ← Session.running (Executor.enter none)
        Session.running (Executor.listen user (some "progress"))
        let ref ← encoder (.bool true)
        let path ← runTo ref (.text "b.mp4") (.executor user) .null
        return (path.spelling, (← get).runtime.events.map (·.2.name)) :
          Step (String × List String)).run' (.initial Settings.fromVariables) =
      some ("b.mp4", ["started", "progress", "cancelled"]) := by
  decide +kernel

end Command

end MediaCommand
