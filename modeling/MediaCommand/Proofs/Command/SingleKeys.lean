import MediaCommand.Proofs.Command.Indices
import MediaCommand.Proofs.Command.SettingsReads

/-!
# Keys that occur once

A key occurs at most once among the arguments of a command as long as no call adds a value under it
beside those that are there. `AtMostOnce` says it of several keys and of a well-formed list.
Erasing an argument and changing a value keep it, and so does appending an argument under a key
without one. So it holds, whatever makes the command, after all calls that do not repeat one of the
keys, those that fail included (`CommandMaker.atMostOnce_calls`).
-/

namespace MediaCommand

open MediaCommand.Action

namespace ArgumentList

variable {list : ArgumentList} {keys : List String}

/-- A well-formed list with at most one argument under each of some keys. -/
structure AtMostOnce (keys : List String) (list : ArgumentList) : Prop where
  formed : list.WellFormed
  once : ∀ key ∈ keys, list.arguments.countP (·.matchesKey key) ≤ 1

/-- The key is none of some keys, however these are spelled. -/
def Foreign (keys : List String) (name : String) : Prop :=
  ∀ key ∈ keys, commandKey name ≠ commandKey key

theorem AtMostOnce.empty (keys : List String) : AtMostOnce keys empty :=
  ⟨.empty, fun _ _ => Nat.zero_le _⟩

theorem AtMostOnce.append (kept : list.AtMostOnce keys) {name : String}
    (new : list.find? name = none ∨ Foreign keys name) : (list.append name).AtMostOnce keys where
  formed := kept.formed.append name
  once key mem := by
    rw [ArgumentList.append, List.countP_append, List.countP_singleton]
    by_cases same : commandKey name = commandKey key
    · have absent : ∀ a ∈ list.arguments, ¬ a.matchesKey key = true := by
        intro a here under
        rcases new with missing | foreign
        · exact absent_of_not_found missing a here ((matchesKey_iff.1 under).trans same.symm)
        · exact foreign key mem same
      rw [List.countP_eq_zero.2 absent]
      split <;> omega
    · have differ : ¬ (commandKey name == commandKey key) = true := by simpa using same
      simpa [Argument.matchesKey, differ] using kept.once key mem

theorem AtMostOnce.erase (kept : list.AtMostOnce keys) (name : String) :
    (list.erase name).AtMostOnce keys where
  formed := kept.formed.erase name
  once key mem := Nat.le_trans List.eraseP_sublist.countP_le (kept.once key mem)

theorem AtMostOnce.change (kept : list.AtMostOnce keys) (index : Int) {f : Argument → Argument}
    (key : ∀ a, (f a).key = a.key) (place : ∀ a, (f a).index = a.index) :
    (list.change index f).AtMostOnce keys where
  formed := kept.formed.change index key place
  once name mem := by
    have same (a : Argument) :
        (if a.index = index then f a else a).matchesKey name = a.matchesKey name := by
      split <;> simp [Argument.matchesKey, key]
    simpa only [ArgumentList.change, List.countP_map, Function.comp_def, same]
      using kept.once name mem

theorem AtMostOnce.opened (kept : list.AtMostOnce keys) {name : String} {unique : Bool}
    (allowed : unique = true ∨ Foreign keys name) : (list.opened name unique).AtMostOnce keys := by
  unfold ArgumentList.opened
  split
  · exact kept
  · next missing =>
    refine kept.append ?_
    rcases allowed with rfl | foreign
    · exact .inl missing
    · exact .inr foreign

theorem AtMostOnce.entered (kept : list.AtMostOnce keys) {name : String} {unique : Bool}
    (allowed : unique = true ∨ Foreign keys name) (value : Option String) (quoted : Bool) :
    (list.entered name unique value quoted).AtMostOnce keys :=
  (kept.opened allowed).change _ (fun _ => rfl) fun _ => rfl

/-- Beside the argument under a key there is no other. -/
theorem AtMostOnce.alone (kept : list.AtMostOnce keys) {key : String} (mem : key ∈ keys)
    {front back : List Argument} {a : Argument} (split : list.arguments = front ++ a :: back)
    (under : a.key = commandKey key) : ∀ b ∈ front ++ back, b.key ≠ commandKey key := by
  have count := kept.once key mem
  have here : a.matchesKey key = true := matchesKey_iff.2 under
  simp only [split, List.countP_append, List.countP_cons, here, if_true] at count
  have none : (front ++ back).countP (·.matchesKey key) = 0 := by
    rw [List.countP_append]
    omega
  exact fun b there same => List.countP_eq_zero.1 none b there (matchesKey_iff.2 same)

/-- Erasing takes all that is under a key. -/
theorem AtMostOnce.erase_arguments (kept : list.AtMostOnce keys) {key : String} (mem : key ∈ keys) :
    (list.erase key).arguments = list.arguments.filter (!·.matchesKey key) := by
  cases found : list.find? key with
  | none =>
    have absent := absent_of_not_found found
    rw [erase_of_not_found found, List.filter_eq_self.2]
    intro a here
    simpa [Argument.matchesKey] using absent a here
  | some a =>
    obtain ⟨front, back, split, under, first⟩ := split_of_found found
    have others := kept.alone mem split under
    have gone : ¬ (!a.matchesKey key) = true := by simpa using matchesKey_iff.2 under
    rw [erase_of_split split under first, split, List.filter_append, List.filter_cons, if_neg gone,
      ← List.filter_append, List.filter_eq_self.2]
    intro b there
    simpa [Argument.matchesKey] using others b there

/-- A value that is written under a unique key is all that there is under it, in the place of what
there was. -/
theorem AtMostOnce.assign_split (kept : list.AtMostOnce keys) {key : String} (mem : key ∈ keys)
    (value : Option String) (quoted : Bool) :
    ∃ front old back index,
      list.arguments = front ++ old ++ back ∧
      (list.assign key value quoted).arguments =
        front ++ ⟨commandKey key, value, quoted, index⟩ :: back ∧
      (∀ a ∈ old, a.key = commandKey key) ∧ ∀ a ∈ front ++ back, a.key ≠ commandKey key := by
  obtain ⟨front, old, back, index, before, after, first, replaced⟩ :=
    kept.formed.assign_split key value quoted
  refine ⟨front, old, back, index, before, after, ?_⟩
  rcases replaced with ⟨a, rfl, under⟩ | ⟨rfl, rfl⟩
  · have split : list.arguments = front ++ a :: back := by simp [before]
    exact ⟨by simpa using under, kept.alone mem split under⟩
  · exact ⟨by simp, by simpa using first⟩

/-! ## Edits -/

/-- The keys that occurred at most once still do. -/
def Desk.KeepsOnce (keys : List String) (before after : Desk) : Prop :=
  before.list.AtMostOnce keys → after.list.AtMostOnce keys

instance : IsPreorder Desk (Desk.KeepsOnce keys) where
  refl _ := id
  trans _ _ _ first second kept := second (first kept)

/-- An edit after which keys still occur at most once. -/
abbrev KeepsOnce (keys : List String) {α : Type} (edit : Edit α) : Prop :=
  Respects (Desk.KeepsOnce keys) edit

theorem keepsOnce_withTokens {α : Type} (action : Action Tokens α) :
    KeepsOnce keys (withTokens action) :=
  .within action fun _ _ => id

theorem keepsOnce_put (key value : Value) {unique : Bool} (quoted : Bool)
    (allowed : ∀ name, key = .text name → unique = true ∨ Foreign keys name) :
    KeepsOnce keys (put key value unique quoted) := by
  cases key with
  | text name =>
    intro d kept
    cases normal : normalize value d.tokens with
    | error failure rest =>
      rw [after_of_error (put_of_error normal)]
      exact kept.opened (allowed name rfl)
    | ok text rest =>
      rw [after_of_ok (put_of_ok normal)]
      exact kept.entered (allowed name rfl) text quoted
  | _ => exact .throw _

theorem keepsOnce_remove (key : Value) : KeepsOnce keys (remove key) := by
  intro d kept
  by_cases named : ∃ name, key = .text name
  · obtain ⟨name, rfl⟩ := named
    exact kept.erase name
  · rw [after_remove_other (fun name same => named ⟨name, same⟩)]
    exact kept

theorem after_find (key : Value) (d : Desk) : (find key).after d = d := by
  by_cases named : ∃ name, key = .text name
  · obtain ⟨name, rfl⟩ := named
    rfl
  · rcases searchKey_other (fun name same => named ⟨name, same⟩) d with
      ⟨-, searched⟩ | ⟨-, failure, searched⟩
    · rw [find, after_bind_of_ok searched]
      rfl
    · rw [find, after_bind_of_error searched]

theorem keepsOnce_replace (key value : Value) : KeepsOnce keys (replace key value) := by
  refine .bind (.of_unchanged (after_find key)) fun found => ?_
  split
  · exact .bind (keepsOnce_withTokens _) fun text =>
      .modify fun d kept => kept.change _ (fun _ => rfl) fun _ => rfl
  · exact .pure _

theorem keepsOnce_write (key : String) (value : Value) : KeepsOnce keys (write key value) :=
  .bind (keepsOnce_put _ _ _ fun _ _ => .inl rfl) fun _ => .pure _

theorem keepsOnce_addAgain {key : String} (foreign : Foreign keys key) (value : Value) :
    KeepsOnce keys (addAgain key value) := by
  refine .bind (keepsOnce_put _ _ _ fun name same => ?_) fun _ => .pure _
  cases same
  exact .inr foreign

theorem keepsOnce_setOverwrite (overwrite : Value) : KeepsOnce keys (setOverwrite overwrite) :=
  .bind (keepsOnce_remove _) fun _ => keepsOnce_write _ _

theorem keepsOnce_addInputs (foreign : Foreign keys "i") (paths : List Value) :
    KeepsOnce keys (addInputs paths) := by
  induction paths with
  | nil => exact .pure _
  | cons path rest ih =>
    unfold addInputs
    split
    · exact .bind (keepsOnce_addAgain foreign _) fun _ => ih
    · exact ih

theorem keepsOnce_setCodec (codec streamType : Value) :
    KeepsOnce keys (setCodec codec streamType) := by
  unfold setCodec
  split
  · exact keepsOnce_write _ _
  · exact .bind (.ofExcept _) fun _ => keepsOnce_write _ _

theorem keepsOnce_setSize (width height : Value) : KeepsOnce keys (setSize width height) := by
  unfold setSize
  split
  · exact keepsOnce_write _ _
  · exact .bind (.ofExcept _) fun _ => .bind (.ofExcept _) fun _ => keepsOnce_write _ _

theorem keepsOnce_setOutput (path : Value) : KeepsOnce keys (setOutput path) := by
  unfold setOutput
  split
  · exact .throw _
  · exact keepsOnce_write _ _

theorem keepsOnce_showStreams (selection : Value) : KeepsOnce keys (showStreams selection) := by
  refine .bind (keepsOnce_write _ _) fun _ => ?_
  split
  · exact .pure _
  · exact keepsOnce_write _ _

end ArgumentList

open ArgumentList

/-! ## Calls -/

/-- The key that a call adds values under, beside those that are there. -/
def OptionCall.repeatedKey? : OptionCall → Option String
  | .put (.text key) _ false _ => some key
  | .inputs _ => some "i"
  | .metadata .. => some "metadata"
  | .map _ => some "map"
  | _ => none

/-- Whether a call adds a value under a key, beside those that are there. -/
def OptionCall.repeats (key : String) (call : OptionCall) : Bool :=
  call.repeatedKey?.any fun name => decide (commandKey name = commandKey key)

theorem OptionCall.foreign_of_repeatedKey {call : OptionCall} {keys : List String}
    (spared : ∀ key ∈ keys, call.repeats key = false) {name : String}
    (repeated : call.repeatedKey? = some name) : Foreign keys name := by
  intro key mem same
  have other := spared key mem
  rw [repeats, repeated, Option.any_some, decide_eq_false_iff_not] at other
  exact other same

theorem OptionCall.keepsOnce_edit {call : OptionCall} {keys : List String}
    (spared : ∀ key ∈ keys, call.repeats key = false) : KeepsOnce keys call.edit := by
  have foreign {name : String} (repeated : call.repeatedKey? = some name) : Foreign keys name :=
    foreign_of_repeatedKey spared repeated
  cases call with
  | put key value unique quoted =>
    refine .bind (keepsOnce_put _ _ _ fun name same => ?_) fun _ => .pure _
    cases unique with
    | true => exact .inl rfl
    | false =>
      cases same
      exact .inr (foreign rfl)
  | remove key => exact keepsOnce_remove _
  | replace key value => exact keepsOnce_replace _ _
  | flag option => exact keepsOnce_write _ _
  | set option value => exact keepsOnce_write _ _
  | overwrite value => exact keepsOnce_setOverwrite _
  | features flags => exact .bind (keepsOnce_withTokens _) fun _ => keepsOnce_write _ _
  | inputs paths => exact keepsOnce_addInputs (foreign rfl) paths
  | codec name streamType => exact keepsOnce_setCodec _ _
  | metadata key value =>
    exact .bind (.ofExcept _) fun _ => .bind (keepsOnce_withTokens _) fun _ =>
      keepsOnce_addAgain (foreign rfl) _
  | map spec => exact keepsOnce_addAgain (foreign rfl) _
  | search start stop => exact .bind (keepsOnce_write _ _) fun _ => keepsOnce_write _ _
  | searchFor start length => exact .bind (keepsOnce_write _ _) fun _ => keepsOnce_write _ _
  | loop => exact keepsOnce_write _ _
  | size width height => exact keepsOnce_setSize _ _
  | output path => exact keepsOnce_setOutput _

/-- A call on a command of any kind: one that all commands share, a list of streams, or a probe. -/
inductive BuilderCall (ref : Ref .command) where
  | common (call : CommandCall ref)
  | streams (selection : Value)
  | probe (depth : Nat) (runner : Runner) (timeout : Value)

/-- A command as it was, but for arguments among which keys still occur at most once. -/
def Session.KeepsOnce (ref : Ref .command) (keys : List String) (before after : Session) : Prop :=
  ∀ command, before.commands.get? ref = some command → command.arguments.AtMostOnce keys →
    ∃ list, list.AtMostOnce keys ∧
      after.commands.get? ref = some { command with arguments := list }

instance (ref : Ref .command) (keys : List String) :
    IsPreorder Session (Session.KeepsOnce ref keys) where
  refl _ command present kept := ⟨command.arguments, kept, present⟩
  trans _ _ _ first second command present kept := by
    obtain ⟨list, kept, present⟩ := first command present kept
    obtain ⟨last, kept, present⟩ := second _ present kept
    exact ⟨last, kept, present⟩

namespace Command

variable {ref : Ref .command} {keys : List String}

theorem keepsOnce_edit {α : Type} {edit : ArgumentList.Edit α}
    (kept : ArgumentList.KeepsOnce keys edit) :
    Respects (Session.KeepsOnce ref keys) (Command.edit ref edit) := by
  intro s command present once
  rw [after_congr (edit_apply present edit), after_within]
  exact ⟨_, kept ⟨s.workspace.tokens, command.arguments⟩ once, get?_settled present _⟩

theorem keepsOnce_of_keeps {before after : Session} (keeps : before.Keeps ref after) :
    before.KeepsOnce ref keys after := fun command present once =>
  ⟨command.arguments, once, keeps command present⟩

theorem keepsOnce_probe (depth : Nat) (runner : Runner) (timeout : Value) :
    Respects (Session.KeepsOnce ref keys) (probe depth ref runner timeout) := by
  refine .bind (keepsOnce_edit (keepsOnce_write _ _)) fun _ =>
    .bind (respects_run (fun _ _ => keepsOnce_of_keeps) runner timeout _) fun _ => ?_
  split
  · exact .bind (.ofExcept _) fun _ => .pure _
  · exact .ofExcept _

end Command

namespace BuilderCall

variable {ref : Ref .command} {keys : List String}

/-- Makes a call on a command. -/
def perform : BuilderCall ref → Step Unit
  | .common call => call.perform
  | .streams selection => Command.edit ref (showStreams selection)
  | .probe depth runner timeout => do let _ ← Command.probe depth ref runner timeout

/-- Whether a call adds a value under a key, beside those that are there. -/
def repeats (key : String) : BuilderCall ref → Bool
  | .common (.option call) => call.repeats key
  | _ => false

/-- The session after calls in turn, those that fail included. -/
def afterCalls (calls : List (BuilderCall ref)) (s : Session) : Session :=
  calls.foldl (fun s call => call.perform.after s) s

theorem keepsOnce_perform {call : BuilderCall ref}
    (spared : ∀ key ∈ keys, call.repeats key = false) :
    Respects (Session.KeepsOnce ref keys) call.perform := by
  cases call with
  | common call =>
    have kept (s t : Session) (keeps : s.Keeps ref t) : s.KeepsOnce ref keys t :=
      Command.keepsOnce_of_keeps keeps
    cases call with
    | option call => exact Command.keepsOnce_edit (OptionCall.keepsOnce_edit spared)
    | filters items =>
      exact Command.respects_setFilters kept
        (fun _ _ => Command.keepsOnce_edit (keepsOnce_write _ _)) items
    | writeTo path runner timeout =>
      have written : Respects (Session.KeepsOnce ref keys) (Command.edit ref (setOutput path)) :=
        Command.keepsOnce_edit (keepsOnce_setOutput path)
      exact .bind (Command.respects_runTo kept written runner timeout) fun _ => .pure _
    | run runner timeout check =>
      exact .bind (Command.respects_run kept runner timeout check) fun _ => .pure _
    | elsewhere action apart => exact apart.mono kept
  | streams selection => exact Command.keepsOnce_edit (keepsOnce_showStreams selection)
  | probe depth runner timeout => exact .bind (Command.keepsOnce_probe _ _ _) fun _ => .pure _

theorem keepsOnce_calls {calls : List (BuilderCall ref)}
    (spared : ∀ call ∈ calls, ∀ key ∈ keys, call.repeats key = false) (s : Session) :
    s.KeepsOnce ref keys (afterCalls calls s) := by
  induction calls generalizing s with
  | nil => exact refl s
  | cons call rest ih =>
    have first := keepsOnce_perform (spared call List.mem_cons_self) s
    exact trans_of (Session.KeepsOnce ref keys) first
      (ih (fun other mem => spared other (List.mem_cons_of_mem _ mem)) _)

end BuilderCall

/-! ## Makers of commands of any kind -/

/-- What makes a command: a kind with a program of the caller, or a program of the settings. -/
inductive CommandMaker where
  | plain (kind : CommandKind) (binary : String)
  | configured (factory : Factory)

namespace CommandMaker

variable {ref : Ref .command} {s start : Session} {keys : List String}

def make : CommandMaker → Step (Ref .command)
  | .plain kind binary => Command.enter kind binary
  | .configured factory => factory.make

/-- A new command has no key more than once. -/
theorem atMostOnce_of_enter {kind : CommandKind} {binary : String}
    (made : Command.enter kind binary s = .ok ref start) :
    ∃ command, start.commands.get? ref = some command ∧ command.arguments.AtMostOnce keys := by
  cases made
  exact ⟨_, Store.get?_add_next _ _, .empty keys⟩

theorem atMostOnce_of_make {maker : CommandMaker} (made : maker.make s = .ok ref start) :
    ∃ command, start.commands.get? ref = some command ∧ command.arguments.AtMostOnce keys := by
  cases maker with
  | plain kind binary => exact atMostOnce_of_enter made
  | configured factory =>
    cases factory with
    | encoder overwrite =>
      obtain ⟨settings, t, -, made⟩ := bind_eq_ok.1 made
      obtain ⟨new, u, entered, made⟩ := bind_eq_ok.1 made
      obtain ⟨command, present, once⟩ := atMostOnce_of_enter entered
      dsimp only at made
      split at made
      · obtain ⟨_, v, edited, done⟩ := bind_eq_ok.1 made
        cases done
        have kept : KeepsOnce keys (setOverwrite (.bool true)) := keepsOnce_setOverwrite _
        have kept := Command.keepsOnce_edit kept u command present once
        rw [after_of_ok edited] at kept
        obtain ⟨list, once, present⟩ := kept
        exact ⟨_, present, once⟩
      · cases made
        exact ⟨command, present, once⟩
    | _ =>
      obtain ⟨settings, t, -, made⟩ := bind_eq_ok.1 made
      exact atMostOnce_of_enter made

/-- Whatever made the command, calls that repeat none of some keys leave it with each of them at
most once. -/
theorem atMostOnce_calls {maker : CommandMaker} (made : maker.make s = .ok ref start)
    {calls : List (BuilderCall ref)}
    (spared : ∀ call ∈ calls, ∀ key ∈ keys, call.repeats key = false) :
    ∃ command, (BuilderCall.afterCalls calls start).commands.get? ref = some command ∧
      command.arguments.AtMostOnce keys := by
  obtain ⟨first, present, once⟩ := atMostOnce_of_make made
  obtain ⟨list, once, present⟩ := BuilderCall.keepsOnce_calls spared start first present once
  exact ⟨_, present, once⟩

end CommandMaker

end MediaCommand
