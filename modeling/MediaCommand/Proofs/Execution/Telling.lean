import MediaCommand.Execution.Executor
import MediaCommand.Proofs.Action
import MediaCommand.Proofs.Store

/-!
# What listeners are told

`announced` is the record of events that all listeners are told in turn, and `requests` counts how
often listeners ask to cancel while they are told events, from what each of them decides alone. The
lemmas `…_apply` say what the small steps of an executor do. A listener may cancel in the middle of
every operation, so each of them needs that the child to be signalled exists (`Runtime.Linked`).
-/

namespace MediaCommand

/-- The child that an executor started last exists. -/
def Runtime.Linked (world : Runtime) : Prop :=
  ∀ ref executor child, world.executors.get? ref = some executor →
    executor.current = some child → (world.children.get? child).isSome

/-- Whether an event ends a run. -/
def RunEvent.IsTerminal : RunEvent → Prop
  | .completed _ | .failed _ | .cancelled => True
  | .started | .progress _ => False

/-- The record of events that listeners are told, each by all of them in turn. -/
def announced (listeners : List Listener) (events : List RunEvent) : List (Nat × RunEvent) :=
  events.flatMap fun event => listeners.map fun listener => (listener.number, event)

@[simp] theorem announced_nil (listeners : List Listener) : announced listeners [] = [] := rfl

theorem announced_append (listeners : List Listener) (first second : List RunEvent) :
    announced listeners (first ++ second) =
      announced listeners first ++ announced listeners second :=
  List.flatMap_append

/-! ## Requests for cancellation -/

/-- What a record says that one listener was told. -/
def toldIn (record : List (Nat × RunEvent)) (number : Nat) : List RunEvent :=
  (record.filter fun entry => decide (entry.1 = number)).map (·.2)

/-- How often listeners ask to cancel when they are told events one after the other. `record` is
what was told before. -/
def requests (record : List (Nat × RunEvent)) : List (Listener × RunEvent) → Nat
  | [] => 0
  | (listener, event) :: rest =>
    let heard := record ++ [(listener.number, event)]
    (if listener.cancels (toldIn heard listener.number) then 1 else 0) + requests heard rest

/-- Each event with each of the listeners in turn. -/
def announcements (listeners : List Listener) (events : List RunEvent) :
    List (Listener × RunEvent) :=
  events.flatMap fun event => listeners.map fun listener => (listener, event)

/-- How often listeners ask to cancel when all of them are told events. -/
def Runtime.requests (world : Runtime) (listeners : List Listener) (events : List RunEvent) : Nat :=
  MediaCommand.requests world.events (announcements listeners events)

theorem requests_append (record : List (Nat × RunEvent))
    (first second : List (Listener × RunEvent)) :
    requests record (first ++ second) =
      requests record first +
        requests (record ++ first.map fun told => (told.1.number, told.2)) second := by
  induction first generalizing record with
  | nil => simp [requests]
  | cons told rest ih =>
    rw [List.cons_append, requests, requests, ih, Nat.add_assoc, List.map_cons, List.append_assoc]
    rfl

theorem announced_eq (listeners : List Listener) (events : List RunEvent) :
    announced listeners events =
      (announcements listeners events).map fun told => (told.1.number, told.2) := by
  simp [announced, announcements, List.map_flatMap, Function.comp_def]

@[simp] theorem Runtime.requests_nil (world : Runtime) (listeners : List Listener) :
    world.requests listeners [] = 0 := rfl

@[simp] theorem Runtime.requests_unheard (world : Runtime) (events : List RunEvent) :
    world.requests [] events = 0 := by
  have unheard : announcements [] events = [] := List.flatMap_eq_nil_iff.2 fun _ _ => rfl
  rw [requests, unheard]
  rfl

theorem Runtime.requests_append {world mid : Runtime} {listeners : List Listener}
    {first : List RunEvent} (told : mid.events = world.events ++ announced listeners first)
    (second : List RunEvent) :
    world.requests listeners (first ++ second) =
      world.requests listeners first + mid.requests listeners second := by
  rw [requests, announcements, List.flatMap_append, MediaCommand.requests_append, requests,
    requests, told, announced_eq]
  rfl

/-! ## Steps of an executor -/

namespace Executor

variable {ref : Ref .executor} {world : Runtime}

theorem read_apply {executor : Executor} (present : world.executors.get? ref = some executor) :
    read ref world = .ok executor world :=
  Action.require_of_some present

theorem change_apply {executor : Executor} (present : world.executors.get? ref = some executor)
    (f : Executor → Executor) :
    change ref f world =
      .ok () { world with executors := world.executors.put ref (f executor) } := by
  rw [change, Action.bind_of_ok (read_apply present), Action.modify_apply]

theorem changeChild_apply {ref : Ref .child} {child : Child}
    (present : world.children.get? ref = some child) (f : Child → Child) :
    changeChild ref f world =
      .ok () { world with children := world.children.put ref (f child) } := by
  simp only [changeChild, Action.get_bind_apply, present]
  rfl

theorem linked_put (linked : world.Linked) {executor next : Executor}
    (present : world.executors.get? ref = some executor)
    (current : ∀ child, next.current = some child → (world.children.get? child).isSome) :
    Runtime.Linked { world with executors := world.executors.put ref next } := by
  intro other executor child found started
  by_cases here : other = ref
  · subst here
    cases (Store.get?_put_self present).symm.trans found
    exact current child started
  · exact linked other executor child ((Store.get?_put_other here).symm.trans found) started

theorem linked_putChild (linked : world.Linked) (ref : Ref .child) (child : Child) :
    Runtime.Linked { world with children := world.children.put ref child } :=
  fun other executor current found started =>
    Store.isSome_put (linked other executor current found started)

theorem linked_addChild (linked : world.Linked) (child : Child) :
    Runtime.Linked { world with children := world.children.add child } := by
  intro other executor current found started
  obtain ⟨old, there⟩ := Option.isSome_iff_exists.1 (linked other executor current found started)
  exact Option.isSome_iff_exists.2 ⟨old, Store.get?_add_of_some there⟩

/-! ## Messages -/

/-- A template can be filled, whether arguments are sanitized or not. -/
def Fillable (template : String) (arguments : List Value) : Prop :=
  (∃ text, Template.fill template (LogArguments.ofList arguments) = .ok text) ∧
    ∃ text, Journal.safeMessage template arguments = .ok text

theorem log_apply {template : String} {arguments : List Value}
    (fillable : Fillable template arguments) (level : LogLevel) (world : Runtime) :
    ∃ journal, log level template arguments world = .ok () { world with journal } := by
  obtain ⟨⟨plain, filled⟩, safe, safely⟩ := fillable
  have recorded : ∃ journal,
      Journal.log level template arguments world.journal = .ok () journal := by
    rw [Journal.log, Action.get_bind_apply]
    split
    · split
      · exact ⟨_, by rw [safely]; rfl⟩
      · exact ⟨_, by rw [filled]; rfl⟩
    · exact ⟨_, rfl⟩
  obtain ⟨journal, recorded⟩ := recorded
  exact ⟨journal, Action.within_of_ok recorded⟩

end Executor

end MediaCommand
