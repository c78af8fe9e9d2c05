import MediaCommand.Proofs.Command.Calls
import MediaCommand.Proofs.Command.Indices
import MediaCommand.Proofs.Value.Writable
import MediaCommand.Settings.Variables

/-!
# What failed calls leave

A call that sets one option puts at most one value (`OptionCall.option?`). A put makes room for its
value before it writes it, so one that fails leaves an argument without a value exactly where the
room is new and the value cannot be written (`OpensInVain`). Every other failure leaves all lists as
they were: `failed_keeps_iff` says so of the lists in a session, those of commands among them.
-/

namespace MediaCommand

open MediaCommand.Action
open MediaCommand.ArgumentList (Desk)

/-! ## Puts that fail -/

namespace ArgumentList

variable {d after : Desk} {failure : Failure}

/-- A value that cannot be written leaves its place, under a key that is a text. Any other failure
comes before the place is made. -/
theorem put_eq_error {key value : Value} {unique quoted : Bool}
    (failed : put key value unique quoted d = .error failure after) :
    (∃ name, key = .text name ∧ normalize value d.tokens = .error failure after.tokens ∧
      after.list = d.list.opened name unique) ∨ after = d := by
  cases key with
  | text name =>
    cases normal : normalize value d.tokens with
    | ok text rest => cases (put_of_ok normal).symm.trans failed
    | error other rest =>
      cases (put_of_error normal).symm.trans failed
      exact .inl ⟨name, rfl, rfl, rfl⟩
  | _ =>
    cases failed
    exact .inr rfl

theorem opened_new {list : ArgumentList} {name : String} {unique : Bool}
    (new : unique = true → list.find? name = none) : list.opened name unique = list.append name := by
  unfold opened
  cases unique with
  | false => rfl
  | true => simp only [if_true, new rfl]

theorem opened_present {list : ArgumentList} {name : String} {unique : Bool}
    (present : ¬(unique = true → list.find? name = none)) : list.opened name unique = list := by
  obtain ⟨once, found⟩ := Classical.not_imp.1 present
  obtain ⟨a, found⟩ := Option.ne_none_iff_exists'.1 found
  simp only [opened, once, if_true, found]

theorem append_ne (list : ArgumentList) (name : String) : list.append name ≠ list := by
  intro same
  have next := congrArg ArgumentList.nextIndex same
  simp only [append] at next
  omega

theorem remove_eq_error {key : Value} (failed : remove key d = .error failure after) :
    after = d := by
  by_cases named : ∃ name, key = .text name
  · obtain ⟨name, rfl⟩ := named
    cases (remove_text name d).symm.trans failed
  · have other (name : String) : key ≠ .text name := fun same => named ⟨name, same⟩
    rw [← after_of_error failed]
    exact after_remove_other other d

/-- A replacement changes the value only once it is written. -/
theorem replace_eq_error {key value : Value} (failed : replace key value d = .error failure after) :
    after.list = d.list := by
  by_cases named : ∃ name, key = .text name
  · obtain ⟨name, rfl⟩ := named
    cases found : d.list.find? name with
    | none => cases (replace_of_not_found found).symm.trans failed
    | some a =>
      cases normal : normalize value d.tokens with
      | ok text rest => cases (replace_of_found found normal).symm.trans failed
      | error other rest =>
        cases (replace_of_error found normal).symm.trans failed
        rfl
  · have other (name : String) : key ≠ .text name := fun same => named ⟨name, same⟩
    rcases searchKey_other other d with ⟨-, searched⟩ | ⟨-, cause, searched⟩
    · have missing : find key d = .ok none d := bind_of_ok searched
      cases (bind_of_ok missing).symm.trans failed
    · have missing : find key d = .error cause d := bind_of_error searched
      cases (bind_of_error missing).symm.trans failed
      rfl

end ArgumentList

/-! ## Calls that set one option -/

namespace OptionCall

open ArgumentList

variable {d after : Desk} {failure : Failure}

/-- Whether the call sets one option and not several in turn. -/
def isSingle : OptionCall → Bool
  | .inputs paths => decide ((paths.filter Value.isTruthy).length ≤ 1)
  | .search .. | .searchFor .. => false
  | _ => true

/-- The key and the value that a call puts at once, and whether the key is a unique one. Calls that
make up their value from others write these first, and fail before any change if they cannot. -/
def option? : OptionCall → Option (String × Value × Bool)
  | .put (.text name) value unique _ => some (name, value, unique)
  | .flag option => some (option.key, .null, true)
  | .set option value => some (option.key, value, true)
  | .inputs paths => match paths.filter Value.isTruthy with
    | [path] => some ("i", path, false)
    | _ => none
  | .codec name streamType => match streamType with
    | .null => some ("c", name, true)
    | streamType =>
      if streamType.spellingFits then some ("c:" ++ streamType.spelling, name, true) else none
  | .map spec => some ("map", spec, false)
  | .loop => some ("loop", .int 1, true)
  | .size width height =>
    if width.isMemberOf .videoSize then some ("s", width, true)
    else if width.spellingFits ∧ height.spellingFits then
      some ("s", .text (width.spelling ++ "x" ++ height.spelling), true)
    else none
  | .output path => if path.isTruthy then some (outputKey, path, true) else none
  | _ => none

/-- The call puts a value that cannot be written where no argument stands yet. -/
def OpensInVain (call : OptionCall) (list : ArgumentList) : Prop :=
  ∃ name value unique, call.option? = some (name, value, unique) ∧ ¬value.IsWritable ∧
    (unique = true → list.find? name = none)

theorem addInputs_absent {paths : List Value} (absent : paths.filter Value.isTruthy = []) :
    addInputs paths = pure () := by
  induction paths with
  | nil => rfl
  | cons path rest ih =>
    obtain ⟨first, others⟩ := List.forall_mem_cons.1 (List.filter_eq_nil_iff.1 absent)
    rw [addInputs, if_neg first]
    exact ih (List.filter_eq_nil_iff.2 others)

theorem addInputs_single {paths : List Value} {path : Value}
    (one : paths.filter Value.isTruthy = [path]) : addInputs paths = addAgain "i" path := by
  induction paths with
  | nil => cases one
  | cons first rest ih =>
    by_cases present : first.isTruthy = true
    · rw [List.filter_cons_of_pos present] at one
      obtain ⟨rfl, absent⟩ := List.cons.inj one
      rw [addInputs, if_pos present, addInputs_absent absent]
      exact bind_pure_unit
    · rw [List.filter_cons_of_neg present] at one
      rw [addInputs, if_neg present]
      exact ih one

/-- A call that puts an option at once is a put. -/
theorem edit_of_option {call : OptionCall} {name : String} {value : Value} {unique : Bool}
    (puts : call.option? = some (name, value, unique)) :
    ∃ quoted, call.edit = (do let _ ← ArgumentList.put (.text name) value unique quoted) := by
  cases call with
  | put key value unique quoted =>
    cases key with
    | text name =>
      cases puts
      exact ⟨quoted, rfl⟩
    | _ => cases puts
  | inputs paths =>
    simp only [option?] at puts
    split at puts
    · next path one =>
      cases puts
      exact ⟨false, addInputs_single one⟩
    · cases puts
  | codec codec streamType =>
    cases streamType with
    | null =>
      cases puts
      exact ⟨false, rfl⟩
    | _ =>
      simp only [option?] at puts
      split at puts
      · next fits =>
        cases puts
        exact ⟨false, funext fun d => Value.spelled_bind fits⟩
      · cases puts
  | size width height =>
    simp only [option?] at puts
    refine ⟨false, ?_⟩
    split at puts
    · next named =>
      cases puts
      exact if_pos named
    · next other =>
      split at puts
      · next fits =>
        cases puts
        refine (if_neg other).trans (funext fun d => ?_)
        exact (Value.spelled_bind fits.1).trans (Value.spelled_bind fits.2)
      · cases puts
  | output path =>
    simp only [option?] at puts
    split at puts
    · next present =>
      cases puts
      refine ⟨false, ?_⟩
      simp only [edit, setOutput, present]
      rfl
    · cases puts
  | flag option | set option value | map spec | loop =>
    cases puts
    exact ⟨false, rfl⟩
  | _ => cases puts

/-- A call that looks a text up and then cannot fail leaves the list alone if the look-up fails. -/
theorem list_of_lookUp_error {α : Type} {look : Action Tokens α} {next : α → ArgumentList.Edit Unit}
    (returns : ∀ a e, ∃ rest, next a e = .ok () rest)
    (failed : (withTokens look >>= next) d = .error failure after) : after.list = d.list := by
  rcases bind_eq_error.1 failed with missing | ⟨a, mid, found, failed⟩
  · obtain ⟨rest, -, rfl⟩ := within_eq_error.1 missing
    rfl
  · obtain ⟨rest, done⟩ := returns a mid
    cases done.symm.trans failed

/-- A call that does not fails before any change. -/
theorem list_of_error_without_option {call : OptionCall} (single : call.isSingle = true)
    (without : call.option? = none) (failed : call.edit d = .error failure after) :
    after.list = d.list := by
  cases call with
  | put key value unique quoted =>
    rcases bind_eq_error.1 failed with told | ⟨_, _, -, done⟩
    · rcases put_eq_error told with ⟨name, rfl, -, -⟩ | same
      · cases without
      · rw [same]
    · cases done
  | remove key => rw [remove_eq_error failed]
  | replace key value => exact replace_eq_error failed
  | overwrite value =>
    have writes (key : String) (e : Desk) : ∃ rest, write key .null e = .ok () rest :=
      ⟨_, bind_of_ok (put_of_ok rfl)⟩
    have swaps (other wanted : String) :
        ∃ rest, (do ArgumentList.remove (.text other); write wanted .null) d = .ok () rest := by
      obtain ⟨rest, done⟩ := writes wanted ⟨d.tokens, d.list.erase other⟩
      exact ⟨rest, (bind_of_ok (remove_text other d)).trans done⟩
    simp only [edit, setOverwrite] at failed
    split at failed
    · obtain ⟨rest, done⟩ := swaps "n" "y"
      cases done.symm.trans failed
    · obtain ⟨rest, done⟩ := swaps "y" "n"
      cases done.symm.trans failed
  | features flags =>
    exact list_of_lookUp_error (fun text e => ⟨_, write_text "cpuflags" text e⟩) failed
  | metadata key value =>
    have adds (text : Option String) (e : Desk) : ∃ rest, addAgain "metadata"
        (.text (key.spelling ++ "=" ++ text.getD "None")) e = .ok () rest :=
      ⟨_, bind_of_ok (put_of_ok rfl)⟩
    by_cases fits : key.spellingFits
    · exact list_of_lookUp_error adds ((Value.spelled_bind fits).symm.trans failed)
    · cases (Value.spelled_bind_of_long fits).symm.trans failed
      rfl
  | inputs paths =>
    have absent : paths.filter Value.isTruthy = [] := by
      simp only [option?] at without
      simp only [isSingle, decide_eq_true_eq] at single
      cases present : paths.filter Value.isTruthy with
      | nil => rfl
      | cons path others =>
        rw [present] at without single
        cases others with
        | nil => cases without
        | cons => simp at single
    rw [edit, addInputs_absent absent] at failed
    cases failed
  | output path =>
    simp only [option?] at without
    split at without
    · cases without
    · next empty =>
      simp only [edit, setOutput, empty] at failed
      cases failed
      rfl
  | search start stop | searchFor start length => cases single
  | codec name streamType =>
    by_cases all : streamType = .null
    · rw [all] at without
      cases without
    · rw [edit, setCodec] at failed
      · rw [option?] at without
        · split at without
          · cases without
          · next long =>
            cases (Value.spelled_bind_of_long long).symm.trans failed
            rfl
        · exact all
      · exact all
  | size width height =>
    simp only [option?] at without
    split at without
    · cases without
    · next other =>
      split at without
      · cases without
      · next long =>
        rw [edit, setSize, if_neg other] at failed
        by_cases wide : width.spellingFits
        · have high : ¬height.spellingFits := fun fits => long ⟨wide, fits⟩
          rw [Value.spelled_bind wide] at failed
          cases (Value.spelled_bind_of_long high).symm.trans failed
          rfl
        · cases (Value.spelled_bind_of_long wide).symm.trans failed
          rfl
  | flag option | set option value | map spec | loop => cases without

/-- Where a call puts a value that cannot be written in a new place, it fails and the place stays. -/
theorem fails_of_opensInVain {call : OptionCall} (sound : d.tokens.Sound)
    (vain : call.OpensInVain d.list) :
    ∃ failure after name, call.edit d = .error failure after ∧
      after.list = d.list.append name := by
  obtain ⟨name, value, unique, puts, unwritable, new⟩ := vain
  obtain ⟨quoted, same⟩ := edit_of_option puts
  cases normal : normalize value d.tokens with
  | ok text rest =>
    exact absurd ((normalize_returns_iff sound value).1 ⟨text, rest, normal⟩) unwritable
  | error failure rest =>
    refine ⟨failure, ⟨rest, d.list.opened name unique⟩, name, ?_, opened_new new⟩
    rw [same]
    exact bind_of_error (put_of_error normal)

/-- Every other failure of a call that sets one option leaves the list as it was. -/
theorem list_of_error {call : OptionCall} (sound : d.tokens.Sound) (single : call.isSingle = true)
    (sensible : ¬call.OpensInVain d.list) (failed : call.edit d = .error failure after) :
    after.list = d.list := by
  cases puts : call.option? with
  | none => exact list_of_error_without_option single puts failed
  | some put =>
    obtain ⟨name, value, unique⟩ := put
    obtain ⟨quoted, same⟩ := edit_of_option puts
    rw [same] at failed
    rcases bind_eq_error.1 failed with told | ⟨_, _, -, done⟩
    · rcases put_eq_error told with ⟨_, named, normal, list⟩ | unchanged
      · cases named
        have unwritable := not_isWritable_of_error sound normal
        rw [list]
        apply opened_present
        intro new
        exact sensible ⟨name, value, unique, puts, unwritable, new⟩
      · rw [unchanged]
    · cases done

end OptionCall

/-! ## Lists in a session -/

/-- The list behind a reference, if there is one. -/
def ListRef.list? (s : Session) : ListRef → Option ArgumentList
  | .own ref => s.lists.get? ref
  | .ofCommand ref => (s.commands.get? ref).map (·.arguments)

/-- All lists and commands are as they were, with the arguments in them and the next indices. -/
def Session.SameLists (before after : Session) : Prop :=
  after.lists = before.lists ∧ after.commands = before.commands

instance : IsPreorder Session Session.SameLists where
  refl _ := ⟨rfl, rfl⟩
  trans _ _ _ first second := ⟨second.1.trans first.1, second.2.trans first.2⟩

namespace ArgumentList

variable {s : Session} {ref : ListRef} {list : ArgumentList}

/-- The session after work on a list. -/
def leaving (s : Session) (ref : ListRef) (desk : Desk) : Session :=
  write? ref desk.list { s with workspace := { s.workspace with tokens := desk.tokens } }

theorem run_apply {α : Type} (present : ref.list? s = some list) (edit : Edit α) :
    run ref edit s =
      Action.within (fun _ => ⟨s.workspace.tokens, list⟩) (fun desk _ => leaving s ref desk)
        edit s := by
  have read : ArgumentList.read ref s = .ok list s := by
    cases ref with
    | own ref => exact require_of_some present
    | ofCommand ref =>
      obtain ⟨command, known, rfl⟩ := Option.map_eq_some_iff.1 present
      rw [ArgumentList.read, get_bind_apply, known]
      rfl
  rw [run, bind_of_ok read]
  rfl

theorem list?_leaving (present : ref.list? s = some list) (desk : Desk) :
    ref.list? (leaving s ref desk) = some desk.list := by
  cases ref with
  | own ref => exact Store.get?_put_self present
  | ofCommand ref =>
    obtain ⟨command, known, -⟩ := Option.map_eq_some_iff.1 present
    simp only [ListRef.list?, leaving, write?, known, Store.get?_put_self known, Option.map_some]

theorem sameLists_leaving (present : ref.list? s = some list) {desk : Desk}
    (same : desk.list = list) : s.SameLists (leaving s ref desk) := by
  cases ref with
  | own ref =>
    refine ⟨?_, rfl⟩
    show s.lists.put ref desk.list = s.lists
    rw [same]
    exact Store.put_self present
  | ofCommand ref =>
    obtain ⟨command, known, rfl⟩ := Option.map_eq_some_iff.1 present
    simp only [Session.SameLists, leaving, write?, known, same]
    exact ⟨trivial, Store.put_self known⟩

end ArgumentList

theorem Command.sameLists_work {α : Type} (action : Work α) :
    Respects Session.SameLists (Session.work action) :=
  .within action fun _ _ => ⟨rfl, rfl⟩

/-- A text can be written, so this fails for a command only that was never made. -/
theorem Command.atomic_write (ref : Ref .command) (key text : String) :
    Atomic Session.SameLists (Command.edit ref (ArgumentList.write key (.text text))) := by
  intro s t failure failed
  cases present : s.commands.get? ref with
  | none =>
    have missing : ArgumentList.read (.ofCommand ref) s = .error .noObject s := by
      rw [ArgumentList.read, get_bind_apply, present]
      rfl
    cases (bind_of_error missing).symm.trans failed
    exact ⟨rfl, rfl⟩
  | some command =>
    rw [edit_apply present] at failed
    obtain ⟨desk, edited, -⟩ := within_eq_error.1 failed
    cases (ArgumentList.write_text key text _).symm.trans edited

/-- Filters are rendered before the option is put. -/
theorem Command.atomic_setFilters (ref : Ref .command) (items : List GraphItem) :
    Atomic Session.SameLists (Command.setFilters ref items) := by
  refine .bind (sameLists_work _) fun filters => .bind (sameLists_work _) fun text => ?_
  split
  · exact .bind (sameLists_work _) fun _ => atomic_write ref _ _
  · exact (Respects.pure _).atomic

namespace OptionCall

/-- **What failed calls leave.** Take any list in a session, one of its own or that of a command, and
any call on it that sets one option, with any key and value. All lists and commands are as before
whenever the call fails, exactly if it does not put a value that cannot be written where no argument
stands yet; if it does, a failure leaves that argument at the end of its list, without its value. A
call that sets filters always leaves the lists and commands as before when it fails. -/
theorem failed_keeps_iff {s : Session} (sound : s.workspace.tokens.Sound) :
    (∀ (ref : ListRef) (list : ArgumentList), ref.list? s = some list →
      ∀ call : OptionCall, call.isSingle = true →
        ((∀ failure t, ArgumentList.run ref call.edit s = .error failure t → s.SameLists t) ↔
          ¬call.OpensInVain list) ∧
        (call.OpensInVain list → ∃ failure t name,
          ArgumentList.run ref call.edit s = .error failure t ∧
            ref.list? t = some (list.append name))) ∧
    ∀ (ref : Ref .command) (items : List GraphItem) (failure : Failure) (t : Session),
      Command.setFilters ref items s = .error failure t → s.SameLists t := by
  constructor
  · intro ref list present call single
    have opens (vain : call.OpensInVain list) : ∃ failure t name,
        ArgumentList.run ref call.edit s = .error failure t ∧
          ref.list? t = some (list.append name) := by
      obtain ⟨failure, desk, name, failed, left⟩ :=
        @fails_of_opensInVain ⟨s.workspace.tokens, list⟩ call sound vain
      refine ⟨failure, ArgumentList.leaving s ref desk, name, ?_, ?_⟩
      · exact (ArgumentList.run_apply present _).trans (within_of_error failed)
      · rw [ArgumentList.list?_leaving present, left]
    refine ⟨⟨?_, ?_⟩, opens⟩
    · intro keeps vain
      obtain ⟨failure, t, name, failed, left⟩ := opens vain
      obtain ⟨lists, commands⟩ := keeps failure t failed
      have same : ref.list? t = ref.list? s := by
        cases ref with
        | own ref => exact congrArg (·.get? ref) lists
        | ofCommand ref => exact congrArg (fun store => (store.get? ref).map (·.arguments)) commands
      rw [left, present] at same
      exact list.append_ne name (Option.some.inj same)
    · intro sensible failure t failed
      rw [ArgumentList.run_apply present] at failed
      obtain ⟨desk, edited, rfl⟩ := within_eq_error.1 failed
      exact ArgumentList.sameLists_leaving present
        (@list_of_error ⟨s.workspace.tokens, list⟩ desk failure call sound single sensible edited)
  · intro ref items failure t failed
    exact Command.atomic_setFilters ref items failed

/-- A command that overwrites its output. -/
def overwriting : Session :=
  (Command.encoder (.bool true)).after (.initial Settings.fromVariables)

/-- An infinite value leaves the flag that is there without one, and a new option in its place. -/
theorem failed_keeps_flag :
    let endless : Value := .decimal (.infinite false)
    (∃ failure t, ArgumentList.run (.ofCommand ⟨0⟩) (put (.text "-y") endless true true).edit
        overwriting = .error failure t ∧ overwriting.SameLists t) ∧
      ∃ failure t name, ArgumentList.run (.ofCommand ⟨0⟩) (set .duration endless).edit
        overwriting = .error failure t ∧ (ListRef.ofCommand ⟨0⟩).list? t =
          some (ArgumentList.append ⟨[⟨"-y", none, false, 0⟩], 1⟩ name) := by
  intro endless
  have sound : overwriting.workspace.tokens.Sound := Tokens.sound_initial
  have present : (ListRef.ofCommand ⟨0⟩).list? overwriting =
    some ⟨[⟨"-y", none, false, 0⟩], 1⟩ := rfl
  obtain ⟨calls, -⟩ := failed_keeps_iff sound
  constructor
  · have flag := (calls _ _ present (put (.text "-y") endless true true) rfl).1
    refine ⟨_, _, rfl, flag.2 ?_ _ _ rfl⟩
    rintro ⟨name, value, unique, puts, -, new⟩
    cases puts
    exact absurd (new rfl) (by decide)
  · have option := (calls _ _ present (set .duration endless) rfl).2
    exact option ⟨"t", endless, true, rfl, fun writable => writable, fun _ => by decide⟩

/-- An infinite duration is refused, and its key is on the command line. -/
theorem failed_duration_leaves_key :
    (overwriting.commands.get? ⟨0⟩).map Command.commandLine = some ["ffmpeg", "-y"] ∧
    ∃ t, Command.edit ⟨0⟩ (set .duration (.decimal (.infinite false))).edit overwriting =
        .error .decimalInvalid t ∧
      (t.commands.get? ⟨0⟩).map Command.commandLine = some ["ffmpeg", "-y", "-t"] :=
  ⟨rfl, _, rfl, rfl⟩

end OptionCall

end MediaCommand
