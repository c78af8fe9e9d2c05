import MediaCommand.Proofs.Command.SingleKeys
import MediaCommand.Settings.Variables

/-!
# Choosing whether outputs are overwritten

The choice takes away the argument of one key and writes that of the other (`toggled`). Where each
of the two keys occurs at most once, one argument is left of both, and choosing again changes
nothing. `overwriting_exclusive` states this of every command that calls can reach without adding a
second argument under one of the keys.
-/

namespace MediaCommand

open MediaCommand.Action

/-- The argument is one that a choice about overwriting has made. -/
def Argument.isOverwriting (a : Argument) : Bool := a.matchesKey "y" || a.matchesKey "n"

namespace ArgumentList

variable {list : ArgumentList} {keys : List String} {wanted other : String}

/-- The list with one key in place of another. -/
def toggled (list : ArgumentList) (wanted other : String) : ArgumentList :=
  (list.erase other).assign wanted none false

/-- The list after a choice. -/
def overwritten (list : ArgumentList) (overwrite : Bool) : ArgumentList :=
  if overwrite then list.toggled "y" "n" else list.toggled "n" "y"

/-- What a choice should leave: one argument for it, and all others as they were. -/
structure Overwrites (before after : ArgumentList) (overwrite : Bool) : Prop where
  chosen : ∃ index, after.arguments.filter Argument.isOverwriting =
    [⟨if overwrite then "-y" else "-n", none, false, index⟩]
  others : (after.arguments.filter fun a => !a.isOverwriting) =
    before.arguments.filter fun a => !a.isOverwriting

/-- An assignment is a put under a unique key. -/
theorem entered_unique (list : ArgumentList) (key : String) (value : Option String)
    (quoted : Bool) : list.entered key true value quoted = list.assign key value quoted := by
  simp only [entered, opened, slot, assign, if_true]
  cases list.find? key with
  | some a => rfl
  | none => rfl

theorem setOverwrite_apply (overwrite : Value) (d : Desk) :
    setOverwrite overwrite d = .ok () ⟨d.tokens, d.list.overwritten overwrite.isTruthy⟩ := by
  have flagged (wanted other : String) :
      (do remove (.text other); write wanted .null : Edit Unit) d =
        .ok () ⟨d.tokens, d.list.toggled wanted other⟩ := by
    rw [bind_of_ok (remove_text other d), write]
    let erased : Desk := ⟨d.tokens, d.list.erase other⟩
    have missing : normalize .null erased.tokens = .ok none d.tokens := rfl
    refine (bind_of_ok (put_of_ok missing)).trans ?_
    rw [entered_unique]
    rfl
  rw [setOverwrite]
  cases overwrite.isTruthy with
  | true => exact flagged "y" "n"
  | false => exact flagged "n" "y"

/-- Writing what is there changes nothing. -/
theorem assign_self (formed : list.WellFormed) {key : String} {a : Argument}
    (found : list.find? key = some a) : list.assign key a.value a.quoted = list := by
  obtain ⟨front, back, split, -, -⟩ := split_of_found found
  have same : (list.change a.index ({ · with value := a.value, quoted := a.quoted })).arguments =
      list.arguments := by rw [formed.change_arguments split, split]
  simp only [assign, found]
  exact congrArg (mk · list.nextIndex) same

/-- With each key at most once before, one argument is left of both. -/
theorem AtMostOnce.toggled_split (kept : list.AtMostOnce keys) (mem : wanted ∈ keys)
    (others : other ∈ keys) :
    ∃ front old back index,
      list.arguments.filter (!·.matchesKey other) = front ++ old ++ back ∧
      (list.toggled wanted other).arguments =
        front ++ ⟨commandKey wanted, none, false, index⟩ :: back ∧
      (∀ a ∈ old, a.key = commandKey wanted) ∧
      ∀ a ∈ front ++ back, a.key ≠ commandKey wanted ∧ a.key ≠ commandKey other := by
  obtain ⟨front, old, back, index, before, after, under, rest⟩ :=
    (kept.erase other).assign_split mem none false
  rw [kept.erase_arguments others] at before
  refine ⟨front, old, back, index, before, after, under, fun a here => ⟨rest a here, ?_⟩⟩
  have there : a ∈ list.arguments.filter (!·.matchesKey other) := by
    rw [before, List.append_assoc]
    rcases List.mem_append.1 here with here | here
    · exact List.mem_append_left _ here
    · exact List.mem_append_right _ (List.mem_append_right _ here)
  simpa [Argument.matchesKey] using (List.mem_filter.1 there).2

theorem AtMostOnce.overwrites_toggled (kept : list.AtMostOnce keys) (mem : wanted ∈ keys)
    (others : other ∈ keys) {overwrite : Bool}
    (key : commandKey wanted = if overwrite then "-y" else "-n")
    (either : ∀ a : Argument, a.isOverwriting = (a.matchesKey wanted || a.matchesKey other)) :
    list.Overwrites (list.toggled wanted other) overwrite := by
  obtain ⟨front, old, back, index, before, after, under, rest⟩ := kept.toggled_split mem others
  have made {a : Argument} (here : a.key = commandKey wanted) : a.isOverwriting = true := by
    rw [either, matchesKey_iff.2 here, Bool.true_or]
  have unmade : ∀ a ∈ front ++ back, ¬ a.isOverwriting = true := by
    intro a here
    simpa [either, Argument.matchesKey] using rest a here
  have noFront : front.filter Argument.isOverwriting = [] :=
    List.filter_eq_nil_iff.2 fun a here => unmade a (List.mem_append_left _ here)
  have noBack : back.filter Argument.isOverwriting = [] :=
    List.filter_eq_nil_iff.2 fun a here => unmade a (List.mem_append_right _ here)
  have oldGone : (old.filter fun a => !a.isOverwriting) = [] := by
    refine List.filter_eq_nil_iff.2 fun a here => ?_
    simpa using made (under a here)
  -- The erased argument is one of the two keys.
  have unerased : (list.arguments.filter fun a => !a.isOverwriting) =
      (list.arguments.filter (!·.matchesKey other)).filter fun a => !a.isOverwriting := by
    rw [List.filter_filter]
    refine List.filter_congr fun a _ => ?_
    rw [either]
    cases a.matchesKey other <;> simp
  constructor
  · refine ⟨index, ?_⟩
    rw [after, List.filter_append, List.filter_cons_of_pos (made rfl), noFront, noBack, key]
    rfl
  · rw [unerased, before, after]
    simp [oldGone, made]

/-- Choosing again changes nothing. -/
theorem AtMostOnce.toggled_toggled (kept : list.AtMostOnce keys) (mem : wanted ∈ keys)
    (others : other ∈ keys) (differ : commandKey wanted ≠ commandKey other) :
    (list.toggled wanted other).toggled wanted other = list.toggled wanted other := by
  obtain ⟨front, old, back, index, -, after, -, rest⟩ := kept.toggled_split mem others
  have formed : (list.toggled wanted other).WellFormed := by
    rw [toggled, ← entered_unique]
    exact ((kept.erase other).entered (.inl rfl) none false).formed
  have missing : (list.toggled wanted other).find? other = none := by
    rw [find?, after, List.find?_eq_none]
    intro a here
    rw [matchesKey_iff]
    rcases List.mem_append.1 here with here | here
    · exact (rest a (List.mem_append_left _ here)).2
    · rcases List.mem_cons.1 here with rfl | here
      · exact differ
      · exact (rest a (List.mem_append_right _ here)).2
  have found : (list.toggled wanted other).find? wanted =
      some ⟨commandKey wanted, none, false, index⟩ := by
    have first : front.find? (·.matchesKey wanted) = none := by
      rw [List.find?_eq_none]
      exact fun a here same =>
        (rest a (List.mem_append_left _ here)).1 (matchesKey_iff.1 same)
    rw [find?, after, List.find?_append, first, Option.none_or, List.find?_cons_of_pos]
    exact matchesKey_iff.2 rfl
  rw [toggled, erase_of_not_found missing]
  exact assign_self formed found

theorem AtMostOnce.overwrites_overwritten (kept : list.AtMostOnce ["y", "n"]) (overwrite : Bool) :
    list.Overwrites (list.overwritten overwrite) overwrite := by
  cases overwrite with
  | true => exact kept.overwrites_toggled (by decide) (by decide) rfl fun _ => rfl
  | false => exact kept.overwrites_toggled (by decide) (by decide) rfl fun _ => Bool.or_comm _ _

theorem AtMostOnce.overwritten_overwritten (kept : list.AtMostOnce ["y", "n"])
    (overwrite : Bool) :
    (list.overwritten overwrite).overwritten overwrite = list.overwritten overwrite := by
  cases overwrite with
  | true => exact kept.toggled_toggled (by decide) (by decide) (by decide)
  | false => exact kept.toggled_toggled (by decide) (by decide) (by decide)

end ArgumentList

open ArgumentList

/-- **One choice at a time.** Whatever made the command, and whatever calls were made since, if none
of them added a second argument under either key: choosing about overwriting leaves exactly one
argument under the two keys, the one for the choice, and all other arguments and everything else in
the session as they were. Choosing the same again changes nothing. -/
theorem overwriting_exclusive {maker : CommandMaker} {ref : Ref .command} {s start : Session}
    (made : maker.make s = .ok ref start) {calls : List (BuilderCall ref)}
    (spared : ∀ call ∈ calls, call.repeats "y" = false ∧ call.repeats "n" = false)
    (overwrite : Value) :
    let now := BuilderCall.afterCalls calls start
    let choose := Command.edit ref (setOverwrite overwrite)
    ∃ before list,
      now.commands.get? ref = some before ∧
      before.arguments.Overwrites list overwrite.isTruthy ∧
      let after := { before with arguments := list }
      let done := { now with commands := now.commands.put ref after }
      done.commands.get? ref = some after ∧ choose now = .ok () done ∧ choose done = .ok () done ∧
        (do choose; choose) now = choose now := by
  intro now choose
  have spared : ∀ call ∈ calls, ∀ key ∈ ["y", "n"], call.repeats key = false := fun call mem => by
    simpa using spared call mem
  obtain ⟨before, present, kept⟩ := CommandMaker.atMostOnce_calls made spared
  have edited (t : Session) (command : Command) (there : t.commands.get? ref = some command) :
      choose t = .ok () { t with commands := t.commands.put ref { command with
        arguments := command.arguments.overwritten overwrite.isTruthy } } :=
    (Command.edit_apply there _).trans (within_of_ok (setOverwrite_apply overwrite _))
  let after : Command := { before with
    arguments := before.arguments.overwritten overwrite.isTruthy }
  let done : Session := { now with commands := now.commands.put ref after }
  have there : done.commands.get? ref = some after := Store.get?_put_self present
  have first : choose now = .ok () done := edited now before present
  have again : choose done = .ok () done := by
    refine (edited done after there).trans ?_
    simp only [after, done, kept.overwritten_overwritten, Store.put_put]
  refine ⟨before, _, present, kept.overwrites_overwritten _, there, first, again, ?_⟩
  exact (bind_of_ok first).trans (again.trans first.symm)

/-- Calls on both keys and on others, after which both are there. One of them puts a value that
cannot be written, and leaves its key without one. -/
def overwritingCalls : List (BuilderCall ⟨0⟩) :=
  [.common (.option (.replace (.text "y") (.text "1"))),
    .common (.option (.inputs [.text "a.mp4"])),
    .common (.option (.put (.text "-n") (.decimal (.infinite false)) true false)),
    .common (.option (.set .quality (.int 23))),
    .common (.option (.remove (.text "-y"))),
    .common (.option (.put (.text "y") .null true false))]

/-- Never to overwrite takes the later key away and leaves the earlier one in its place. -/
theorem overwriting_exclusive_never :
    let fresh : Session := .initial Settings.fromVariables
    let start := (CommandMaker.configured (.encoder (.bool true))).make.after fresh
    let now := BuilderCall.afterCalls overwritingCalls start
    let choose := Command.edit ⟨0⟩ (setOverwrite (.bool false))
    ∃ before list done, now.commands.get? ⟨0⟩ = some before ∧
      before.arguments.arguments.map Argument.key = ["-i", "-n", "-crf", "-y"] ∧
      before.arguments.Overwrites list false ∧
      choose now = .ok () done ∧ choose done = .ok () done := by
  intro fresh start now choose
  have made : (CommandMaker.configured (.encoder (.bool true))).make fresh = .ok ⟨0⟩ start := rfl
  have spared : ∀ call ∈ overwritingCalls,
      call.repeats "y" = false ∧ call.repeats "n" = false := by decide
  obtain ⟨before, list, present, overwrites, -, first, again, -⟩ :=
    overwriting_exclusive made spared (.bool false)
  have keys : (now.commands.get? ⟨0⟩).map (·.arguments.arguments.map Argument.key) =
      some ["-i", "-n", "-crf", "-y"] := by decide
  rw [present] at keys
  exact ⟨before, list, _, present, Option.some.inj keys, overwrites, first, again⟩

end MediaCommand
