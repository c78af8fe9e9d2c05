import MediaCommand.Proofs.Execution.EventProtocol

/-!
# Where cancellation arrives

A listener may cancel when it is told that a run has started or made progress. `CancelReaches` says
of a run that such requests arrived at the program of that run and at no other.
`run_cancelReaches_iff` says of every run that calls can lead to when this is so. It fails in three
ways: a request made at the start comes before there is a child to signal, it signals the child of
an earlier run instead, and a child that refuses to be terminated is not killed either.
-/

namespace MediaCommand

/-- Whether an event tells of a run that goes on. -/
def RunEvent.isUnderway : RunEvent → Bool
  | .started | .progress _ => true
  | .completed _ | .failed _ | .cancelled => false

/-- The program that a run started, if it did, has been killed, and programs that were started
before got no signal. -/
def StopsOwn (before after : Runtime) : Prop :=
  (∀ child, after.children.get? before.children.next = some child → 0 < child.kills) ∧
    ∀ ref child, before.children.get? ref = some child → after.children.get? ref = some child

/-- If listeners asked to cancel while a run was under way, its program was stopped and no other. -/
def CancelReaches (listeners : List Listener) (events : List RunEvent) (before after : Runtime) :
    Prop :=
  0 < before.requests listeners (events.filter RunEvent.isUnderway) → StopsOwn before after

variable {ref : Ref .executor} {executor : Executor} {world after : Runtime}

/-- Requests spare the programs started before exactly when there are none, or no child to get
them. -/
theorem spares_iff (linked : world.Linked) (present : world.executors.get? ref = some executor)
    {times : Nat}
    (earlier : ∀ other old, world.children.get? other = some old →
      after.children.get? other = some (executor.signalled times other old)) :
    (∀ other old, world.children.get? other = some old → after.children.get? other = some old) ↔
      times = 0 ∨ executor.current = none := by
  constructor
  · intro spares
    cases current : executor.current with
    | none => exact .inr rfl
    | some child =>
      obtain ⟨old, there⟩ := Option.isSome_iff_exists.1 (linked ref executor child present current)
      have same := (earlier child old there).symm.trans (spares child old there)
      rw [executor.signalled_current current, Option.some.injEq] at same
      have count : old.terminations + times = old.terminations :=
        congrArg Child.terminations same
      exact .inl (by omega)
  · rintro none other old there
    have unsignalled : executor.signalled times other = id := by
      rcases none with rfl | unused
      · exact executor.signalled_zero other
      · exact executor.signalled_other (by simp [unused]) times
    rw [earlier other old there, unsignalled, id]

/-- A child that was asked to stop and then waited for is dead exactly when it came to its limit or
did as it was asked. -/
theorem kills_pos_iff (plan : ChildPlan) (times : Nat) (limit : Bool) :
    0 < (((Child.ofPlan plan).stopped times).expired limit).kills ↔
      limit = true ∨ plan.refusesTerminate = false ∧ 0 < times := by
  cases limit <;> cases refuses : plan.refusesTerminate <;>
    simp [Child.ofPlan, Child.stopped, Child.expired, Child.killed, refuses]

/-- When the requests made during a run of a planned program stop it. -/
theorem stopsOwn_iff_of_ran (linked : world.Linked)
    (present : world.executors.get? ref = some executor) {plan : ChildPlan} {timeout : Value}
    (ran : Ran ref executor plan timeout world after) :
    StopsOwn world after ↔
      (world.requests executor.listeners [.started] = 0 ∨ executor.current = none) ∧
      (plan.expires timeout = true ∨ plan.refusesTerminate = false ∧
        world.requests executor.listeners [.started] <
          world.requests executor.listeners (world.course executor plan timeout)) := by
  have dies := kills_pos_iff plan
    (world.requests executor.listeners (world.course executor plan timeout) -
      world.requests executor.listeners [.started]) (plan.expires timeout)
  rw [Nat.sub_pos_iff_lt] at dies
  rw [StopsOwn, spares_iff linked present ran.earlier, ran.child, ← dies, and_comm]
  simp

/-- When the requests made at the start of a run that starts no program arrive nowhere else. -/
theorem stopsOwn_iff_of_stuck {mid : Runtime} (linked : world.Linked)
    (present : world.executors.get? ref = some executor)
    (said : Says ref executor [.started] world mid) (children : after.children = mid.children) :
    StopsOwn world after ↔
      world.requests executor.listeners [.started] = 0 ∨ executor.current = none := by
  have earlier (other : Ref .child) (old : Child) (there : world.children.get? other = some old) :
      after.children.get? other =
        some (executor.signalled (world.requests executor.listeners [.started]) other old) := by
    rw [children, said.children, there]
    rfl
  have childless : after.children.get? world.children.next = none := by
    rw [children, ← said.next_child, Store.get?_next]
  rw [StopsOwn, spares_iff linked present earlier, childless]
  simp

/-- A listener that is alone is told all events. -/
theorem announced_alone (listener : Listener) (events : List RunEvent) :
    (announced [listener] events).map (·.2) = events := by
  rw [announced, List.map_flatMap]
  exact List.flatMap_singleton' events

namespace Executor

/-- **Where cancellation arrives.** Whatever calls have been made, the requests for cancellation
that listeners make while a run is under way arrive at the program of that run and at no other if
and only if there are none, or both: none is made at the start while the executor holds an earlier
child, and the program, if it can be started, comes to its limit or agrees to be terminated and is
asked after the start. -/
theorem run_cancelReaches_iff (reached : world.Reached)
    (present : world.executors.get? ref = some executor) {command : List String}
    (nonempty : command ≠ []) (timeout : Value) :
    ∃ events,
      ((run ref command timeout).after world).events =
        world.events ++ announced executor.listeners events ∧
      events.head? = some (if executor.cancelled then .cancelled else .started) ∧
      (CancelReaches executor.listeners events world ((run ref command timeout).after world) ↔
        world.requests executor.listeners (events.filter RunEvent.isUnderway) = 0 ∨
        (world.requests executor.listeners [.started] = 0 ∨ executor.current = none) ∧
        ∀ plan, world.plans.head? = some plan → plan.fault = none →
          plan.expires timeout = true ∨ plan.refusesTerminate = false ∧
            world.requests executor.listeners [.started] <
              world.requests executor.listeners events) := by
  have linked := reached.linked
  cases cancelled : executor.cancelled with
  | true =>
    obtain ⟨after, ran, said⟩ := run_cancelled linked present cancelled nonempty timeout
    rw [Action.after_of_ok ran]
    exact ⟨[.cancelled], said.events, rfl, by simp [CancelReaches, RunEvent.isUnderway]⟩
  | false =>
    by_cases starts : world.Starts
    · obtain ⟨plan, next, sound⟩ := starts
      obtain ⟨plans, planned⟩ := List.head?_eq_some_iff.1 next
      obtain ⟨after, returned, ran⟩ :=
        run_planned linked present cancelled planned sound nonempty timeout
      rw [Action.after_of_ok returned]
      refine ⟨_, ran.events, rfl, ?_⟩
      rw [CancelReaches, stopsOwn_iff_of_ran linked present ran, Nat.pos_iff_ne_zero,
        ← Decidable.or_iff_not_imp_left]
      simp [next, sound]
    · obtain ⟨failure, mid, after, failed, said, executors, children, events⟩ :=
        run_stuck linked present cancelled starts nonempty timeout
      rw [Action.after_of_error failed]
      refine ⟨[.started], events.trans said.events, rfl, ?_⟩
      have never : ∀ plan, world.plans.head? = some plan → plan.fault ≠ none :=
        fun plan next sound => starts ⟨plan, next, sound⟩
      rw [CancelReaches, stopsOwn_iff_of_stuck linked present said children, Nat.pos_iff_ne_zero,
        ← Decidable.or_iff_not_imp_left]
      simp +contextual [never]

/-- An executor that has run a program before, and a listener that cancels on progress. -/
def secondRun : List ExecutorCall :=
  [.prepare ⟨[], [], 0, false, false, none⟩, .enter none, .run ⟨0⟩ ["ffmpeg"] .null,
    .prepare ⟨[], ["frame=1\n"], 0, false, false, none⟩,
    .register ⟨0⟩ (Listener.cancelsOn (some "progress"))]

/-- The request made on progress kills the program of the second run and leaves that of the first
alone. -/
theorem run_cancelReaches_secondRun :
    ∃ events,
      ((run ⟨0⟩ ["ffmpeg"] .null).after (ExecutorCall.afterCalls secondRun .initial)).events =
        announced [⟨0, Listener.cancelsOn (some "progress")⟩] events ∧
      CancelReaches [⟨0, Listener.cancelsOn (some "progress")⟩] events
        (ExecutorCall.afterCalls secondRun .initial)
        ((run ⟨0⟩ ["ffmpeg"] .null).after (ExecutorCall.afterCalls secondRun .initial)) := by
  have present : (ExecutorCall.afterCalls secondRun .initial).executors.get? ⟨0⟩ =
    some ⟨none, [⟨0, Listener.cancelsOn (some "progress")⟩], false, some ⟨0⟩⟩ := rfl
  have unheard : (ExecutorCall.afterCalls secondRun .initial).events = [] := rfl
  obtain ⟨events, told, -, reaches⟩ :=
    run_cancelReaches_iff ⟨secondRun, rfl⟩ present (List.cons_ne_nil "ffmpeg" []) .null
  rw [unheard, List.nil_append] at told
  have heard := congrArg (List.map (·.2)) told
  rw [announced_alone] at heard
  have early : (ExecutorCall.afterCalls secondRun .initial).requests
      [⟨0, Listener.cancelsOn (some "progress")⟩] [.started] = 0 := rfl
  have all : (ExecutorCall.afterCalls secondRun .initial).requests
      [⟨0, Listener.cancelsOn (some "progress")⟩] events = 1 := by
    subst heard
    decide +kernel
  refine ⟨events, told, reaches.2 (.inr ⟨.inl early, fun plan next _ => .inr ⟨?_, ?_⟩⟩)⟩
  · cases next
    rfl
  · rw [early, all]
    exact Nat.one_pos

/-- Requests that go astray: one at the start of a run reaches nobody, one that the child refuses to
hear does not kill it, and one at the start of a later run signals the child of the earlier one. -/
theorem requests_astray :
    ((do plan ⟨[], [], 0, false, false, none⟩
         let ref ← enter none
         listen ref (some "started")
         run ref ["ffmpeg"] .null : Running RunResult).after .initial).children.cells.map
      (fun child => (child.terminations, child.kills)) = [(0, 0)] ∧
    ((do plan ⟨[], ["frame=1\n"], 0, false, true, none⟩
         let ref ← enter none
         listen ref (some "progress")
         run ref ["ffmpeg"] .null : Running RunResult).after .initial).children.cells.map
      (fun child => (child.terminations, child.kills)) = [(1, 0)] ∧
    ((do plan ⟨[], [], 0, false, false, none⟩
         plan ⟨[], [], 0, false, false, none⟩
         let ref ← enter none
         let _ ← run ref ["ffmpeg"] .null
         listen ref (some "started")
         run ref ["ffmpeg"] .null : Running RunResult).after .initial).children.cells.map
      (fun child => (child.terminations, child.kills)) = [(1, 1), (0, 0)] := by
  refine ⟨?_, ?_, ?_⟩ <;> decide +kernel

end Executor

end MediaCommand
