import MediaCommand.Proofs.History
import MediaCommand.Proofs.Probe.FormatQuery
import MediaCommand.Settings.Variables
import Mathlib.Data.List.DropRight

/-!
# Caches that answer from the first success

The settings and the container formats are kept from the first success until they are dropped.
`CacheCall` lists the calls that read, drop or depend on them. `firstSettings` and `firstListing`
say from the history of the calls what the first success since the last drop was; each call keeps
up that the caches hold just that (`kept_concat`), and so does a run (`kept_run`).
-/

namespace MediaCommand

open MediaCommand.Action

/-! ## Calls -/

/-- A call that reads a cache, drops it, or works on what it is filled from. A query about a program
is a checked run. `elsewhere` is anything else that goes on in the session. -/
inductive CacheCall where
  | setVariable (name value : String)
  | dropVariable (name : String)
  | setFile (text : Option String)
  | readSettings
  | build (factory : Factory)
  | logging
  | run (ref : Ref .command) (runner : Runner) (timeout check : Value)
  | writeTo (ref : Ref .command) (path : Value) (runner : Runner) (timeout : Value)
  | probe (depth : Nat) (ref : Ref .command) (runner : Runner) (timeout : Value)
  | probeSource (depth : Nat) (path timeout : Value) (runner : Runner)
  | dropSettings
  | listFormats (runner : Runner)
  | dropFormats
  | elsewhere (action : Step Unit) (apart : Respects Session.SameCaches action)

namespace CacheCall

open Session (configure)

def perform : CacheCall → Step Unit
  | .setVariable name value => configure (Configuration.setVariable name value)
  | .dropVariable name => configure (Configuration.dropVariable name)
  | .setFile text => configure (Configuration.setFile text)
  | .readSettings => do let _ ← configure Configuration.settings
  | .build factory => do let _ ← factory.make
  | .logging => Session.configureLogging none
  | .run ref runner timeout check => do let _ ← Command.run ref runner timeout check
  | .writeTo ref path runner timeout => do let _ ← Command.runTo ref path runner timeout
  | .probe depth ref runner timeout => do let _ ← Command.probe depth ref runner timeout
  | .probeSource depth path timeout runner => do
    let _ ← MediaCommand.probeSource depth path timeout runner
  | .dropSettings => configure Configuration.reset
  | .listFormats runner => do let _ ← supportedFormats runner
  | .dropFormats => resetFormats
  | .elsewhere action _ => action

/-- What a call makes of the environment and of the settings file. -/
def updates (c : Configuration) : CacheCall → Configuration
  | .setVariable name value => { c with environment := c.environment.put name value }
  | .dropVariable name => { c with environment := c.environment.erase name }
  | .setFile text => { c with file := text }
  | _ => c

/-- Whether a call reads the settings in a session. -/
def reads (s : Session) : CacheCall → Bool
  | .readSettings | .build _ | .logging | .probeSource _ _ _ _ => true
  | .run _ _ timeout _ => Command.unlimited timeout
  | .writeTo ref path _ timeout =>
    ((Command.edit ref (ArgumentList.setOutput path)).outcome s).isOk && Command.unlimited timeout
  | .probe _ ref _ timeout =>
    ((Command.edit ref (ArgumentList.set .printFormat (.text "json"))).outcome s).isOk &&
      Command.unlimited timeout
  | .listFormats _ => s.formats.isNone
  | .setVariable _ _ | .dropVariable _ | .setFile _ | .dropSettings | .dropFormats
  | .elsewhere _ _ => false

/-- The settings that a call finds outside, if it reads them and they validate. -/
def finds? (s : Session) (call : CacheCall) : Option Settings :=
  if call.reads s then (s.configuration.read []).toOption else none

/-- The listing that a call for the formats finds, if its query succeeds. -/
def lists? (s : Session) : CacheCall → Option String
  | .listFormats runner => listing? runner s
  | _ => none

def dropsSettings : CacheCall → Bool
  | .dropSettings => true
  | _ => false

def dropsFormats : CacheCall → Bool
  | .dropFormats => true
  | _ => false

/-! ## What a call does to the caches -/

theorem configuration_of_reads {call : CacheCall} {s : Session}
    (left : (call.perform.after s).configuration =
      if call.reads s then s.configuration.loaded else s.configuration) :
    (call.perform.after s).configuration =
      { s.configuration with current := s.configuration.current.or (call.finds? s) } := by
  rw [left, finds?]
  cases call.reads s with
  | false =>
    simp only [Bool.false_eq_true, if_false, Option.or_none]
  | true => exact s.configuration.loaded_eq

/-- Calls that read the settings leave them as a reading does, other calls leave them alone. -/
theorem configuration_perform (call : CacheCall) (s : Session) :
    (call.perform.after s).configuration =
      { call.updates s.configuration with
        current :=
          if call.dropsSettings then none else s.configuration.current.or (call.finds? s) } := by
  have returned {α : Type} (action : Step α) :
      ((do let _ ← action : Step Unit).after s).configuration = (action.after s).configuration :=
    congrArg Session.configuration (after_bind_pure _ _ s)
  cases call with
  | setVariable name value | dropVariable name | setFile text =>
    rw [finds?, reads, if_neg Bool.false_ne_true, Option.or_none]
    rfl
  | dropSettings => rfl
  | readSettings => exact configuration_of_reads ((returned _).trans (Session.reads_settings s).1)
  | build factory =>
    exact configuration_of_reads ((returned _).trans (factory.reads_make s).1)
  | logging => exact configuration_of_reads (Session.reads_configureLogging s).1
  | run ref runner timeout check =>
    exact configuration_of_reads ((returned _).trans (Command.reads_run ref runner _ check s).1)
  | writeTo ref path runner timeout =>
    exact configuration_of_reads ((returned _).trans (Command.reads_runTo ref path runner _ s).1)
  | probe depth ref runner timeout =>
    exact configuration_of_reads ((returned _).trans (Command.reads_probe depth ref runner _ s).1)
  | probeSource depth path timeout runner =>
    exact configuration_of_reads
      ((returned _).trans (Command.reads_probeSource depth path timeout runner s).1)
  | listFormats runner =>
    exact configuration_of_reads ((returned _).trans (caches_supportedFormats runner s).1)
  | dropFormats => exact configuration_of_reads rfl
  | elsewhere action apart => exact configuration_of_reads (apart s).1

theorem formats_perform (call : CacheCall) (s : Session) :
    (call.perform.after s).formats =
      if call.dropsFormats then none
      else s.formats.or ((call.lists? s).map ContainerFormat.ofListing) := by
  have returned {α : Type} (action : Step α) :
      ((do let _ ← action : Step Unit).after s).formats = (action.after s).formats :=
    congrArg Session.formats (after_bind_pure _ _ s)
  have kept {call : CacheCall} (same : (call.perform.after s).formats = s.formats)
      (silent : call.lists? s = none) : (call.perform.after s).formats =
        s.formats.or ((call.lists? s).map ContainerFormat.ofListing) := by
    rw [same, silent, Option.map_none, Option.or_none]
  cases call with
  | dropFormats => rfl
  | listFormats runner => exact (returned _).trans (caches_supportedFormats runner s).2
  | setVariable name value | dropVariable name | setFile text | dropSettings => exact kept rfl rfl
  | readSettings => exact kept ((returned _).trans (Session.reads_settings s).2) rfl
  | build factory => exact kept ((returned _).trans (factory.reads_make s).2) rfl
  | logging => exact kept (Session.reads_configureLogging s).2 rfl
  | run ref runner timeout check =>
    exact kept ((returned _).trans (Command.reads_run ref runner _ check s).2) rfl
  | writeTo ref path runner timeout =>
    exact kept ((returned _).trans (Command.reads_runTo ref path runner _ s).2) rfl
  | probe depth ref runner timeout =>
    exact kept ((returned _).trans (Command.reads_probe depth ref runner _ s).2) rfl
  | probeSource depth path timeout runner =>
    exact kept ((returned _).trans (Command.reads_probeSource depth path timeout runner s).2) rfl
  | elsewhere action apart => exact kept (apart s).2 rfl

/-! ## The reference -/

section Reference

variable (s : Session) (calls : List CacheCall)

/-- The configuration with the environment and the settings file after calls. -/
def surroundings : Configuration := calls.foldl updates s.configuration

/-- The calls since the last one that drops a cache, each with the session that it found. -/
def since (drops : CacheCall → Bool) : List (Session × CacheCall) :=
  (history perform calls s).rtakeWhile fun entry => !drops entry.2

/-- What the first reading that succeeded since the last drop found. -/
def firstSettings : Option Settings :=
  (since s calls dropsSettings).findSome? fun entry => entry.2.finds? entry.1

/-- The listing of the first query that succeeded since the last drop. -/
def firstListing : Option String :=
  (since s calls dropsFormats).findSome? fun entry => entry.2.lists? entry.1

/-- What reading the settings after calls finds. -/
def answer : Except Failure Settings :=
  match firstSettings s calls with
  | some settings => .ok settings
  | none => (surroundings s calls).read []

end Reference

variable {s : Session} {calls : List CacheCall}

theorem since_concat (drops : CacheCall → Bool) (call : CacheCall) :
    since s (calls ++ [call]) drops =
      if drops call then [] else since s calls drops ++ [(afterEach perform calls s, call)] := by
  rw [since, history_concat, List.rtakeWhile_concat]
  cases drops call with
  | true => rfl
  | false => rfl

theorem findSome?_since_concat {β : Type} (drops : CacheCall → Bool)
    (found? : Session × CacheCall → Option β) (call : CacheCall) :
    (since s (calls ++ [call]) drops).findSome? found? =
      if drops call then none
      else ((since s calls drops).findSome? found?).or
        (found? (afterEach perform calls s, call)) := by
  rw [since_concat]
  cases drops call with
  | true => rfl
  | false =>
    simp only [Bool.false_eq_true, if_false, List.findSome?_append, List.findSome?_cons,
      List.findSome?_nil]
    cases found? (afterEach perform calls s, call) with
    | some found => rfl
    | none => rfl

/-! ## Runs of calls -/

/-- What holds of the caches after calls. -/
structure Kept (s : Session) (calls : List CacheCall) (t : Session) : Prop where
  configuration : t.configuration = { surroundings s calls with current := firstSettings s calls }
  formats : t.formats = (firstListing s calls).map ContainerFormat.ofListing

theorem kept_concat (kept : Kept s calls (afterEach perform calls s)) (call : CacheCall) :
    Kept s (calls ++ [call]) (afterEach perform (calls ++ [call]) s) := by
  rw [afterEach_concat]
  constructor
  · rw [configuration_perform, firstSettings, findSome?_since_concat, surroundings,
      List.foldl_concat, kept.configuration]
    cases call with
    | _ => rfl
  · rw [formats_perform, firstListing, findSome?_since_concat, kept.formats]
    split
    · rfl
    · exact Option.map_or.symm

theorem kept_run (unread : s.configuration.current = none) (unasked : s.formats = none)
    (calls : List CacheCall) : Kept s calls (afterEach perform calls s) := by
  induction calls using List.reverseRecOn with
  | nil =>
    refine ⟨?_, unasked⟩
    change s.configuration = { s.configuration with current := none }
    rw [← unread]
  | append_singleton calls call ih => exact kept_concat ih call

theorem Kept.inUse {t : Session} (kept : Kept s calls t) :
    t.configuration.inUse = answer s calls := by
  rw [Configuration.inUse, kept.configuration]
  cases first : firstSettings s calls with
  | some settings => rw [answer, first]
  | none =>
    rw [answer, first]
    rfl

/-- There is no success since the last drop when every call since then failed. -/
theorem findSome?_since_eq_none_iff {β : Type} {drops : CacheCall → Bool}
    {found? : Session × CacheCall → Option β} {Fails : Session × CacheCall → Prop}
    (step : ∀ calls call, (since s calls drops).findSome? found? = none →
      (found? (afterEach perform calls s, call) = none ↔
        Fails (afterEach perform calls s, call))) (calls : List CacheCall) :
    (since s calls drops).findSome? found? = none ↔ ∀ entry ∈ since s calls drops, Fails entry := by
  induction calls using List.reverseRecOn with
  | nil => simp [since, history]
  | append_singleton calls call ih =>
    rw [findSome?_since_concat, since_concat]
    cases drops call with
    | true => simp
    | false =>
      simp only [Bool.false_eq_true, if_false, Option.or_eq_none_iff, List.forall_mem_append,
        List.forall_mem_singleton, ← ih]
      exact and_congr_right (step calls call)

/-- What the settings are after calls. -/
structure SettingsOnce (s : Session) (calls : List CacheCall) (t : Session) : Prop where
  configuration : t.configuration = { surroundings s calls with current := firstSettings s calls }
  /-- After a success nothing is read again. -/
  held : ∀ settings, firstSettings s calls = some settings →
    configure Configuration.settings t = .ok settings t
  /-- Without one the environment and the file of the moment are read, and kept if they
  validate. -/
  read : ∀ settings, firstSettings s calls = none → answer s calls = .ok settings →
    configure Configuration.settings t =
      .ok settings { t with
        configuration := { surroundings s calls with current := some settings } }
  invalid : ∀ failure, answer s calls = .error failure →
    configure Configuration.settings t = .error failure t
  /-- A command has its program from the same settings. -/
  built : ∀ (factory : Factory) settings, answer s calls = .ok settings →
    ∃ u command, factory.make t = .ok t.commands.next u ∧
      u.commands.get? t.commands.next = some command ∧
      command.binary = factory.program settings
  unbuilt : ∀ (factory : Factory) failure, answer s calls = .error failure →
    factory.make t = .error failure t
  /-- So has a run that is given no time limit. -/
  limited : (Command.limit .null).outcome t = (answer s calls).map Settings.timeout
  /-- There was no success yet when every reading since the last drop failed. -/
  none_iff : firstSettings s calls = none ↔
    ∀ entry ∈ since s calls dropsSettings, entry.2.reads entry.1 = true →
      ∃ failure, (configure Configuration.settings).outcome entry.1 = .error failure

/-- What the formats are after calls. -/
structure FormatsOnce (s : Session) (calls : List CacheCall) (t : Session) : Prop where
  /-- After a success no query is run: nothing at all happens in the session. -/
  held : ∀ listing, firstListing s calls = some listing → ∀ runner,
    supportedFormats runner t = .ok (ContainerFormat.ofListing listing) t
  /-- Without one the query is run, and a success is kept. -/
  asked : ∀ runner listing, firstListing s calls = none →
    (formatQuery runner).outcome t = .ok listing →
      ∃ u, supportedFormats runner t = .ok (ContainerFormat.ofListing listing) u ∧
        u.formats = some (ContainerFormat.ofListing listing) ∧
        firstListing s (calls ++ [.listFormats runner]) = some listing
  /-- A query that fails leaves nothing, so that the next call runs it again. -/
  failed : ∀ runner failure u, firstListing s calls = none →
    formatQuery runner t = .error failure u →
      supportedFormats runner t = .error failure u ∧ u.formats = none ∧
        firstListing s (calls ++ [.listFormats runner]) = none
  /-- What a recorder is told: the query, just when there was no success. -/
  told : ∀ ref recorder settings, t.recorders.get? ref = some recorder →
    answer s calls = .ok settings →
      ∃ after, ((supportedFormats (.recorder ref)).after t).recorders.get? ref = some after ∧
        after.calls = recorder.calls ++
          if (firstListing s calls).isSome then []
          else [([settings.ffmpeg, "-hide_banner", "-formats"], settings.timeout)]
  /-- There was no success yet when every call since the last drop failed. -/
  none_iff : firstListing s calls = none ↔
    ∀ entry ∈ since s calls dropsFormats, ∀ runner, entry.2 = .listFormats runner →
      ∃ failure, (supportedFormats runner).outcome entry.1 = .error failure

theorem firstSettings_eq_none_iff (unread : s.configuration.current = none)
    (unasked : s.formats = none) (calls : List CacheCall) :
    firstSettings s calls = none ↔
      ∀ entry ∈ since s calls dropsSettings, entry.2.reads entry.1 = true →
        ∃ failure, (configure Configuration.settings).outcome entry.1 = .error failure := by
  apply findSome?_since_eq_none_iff
  intro calls call before
  have kept := kept_run unread unasked calls
  have empty : (afterEach perform calls s).configuration.current = none := by
    rw [kept.configuration]
    exact before
  generalize afterEach perform calls s = t at empty
  have found : t.configuration.inUse = t.configuration.read [] := by
    rw [Configuration.inUse, empty]
  rw [finds?]
  cases call.reads t with
  | false => simp
  | true =>
    simp only [if_true, forall_const]
    rw [← found]
    cases inUse : t.configuration.inUse with
    | ok settings =>
      rw [outcome_of_ok (Session.settings_of_ok inUse)]
      simp [Except.toOption]
    | error failure =>
      rw [outcome_of_error (Session.settings_of_error inUse)]
      simp [Except.toOption]

theorem firstListing_eq_none_iff (unread : s.configuration.current = none)
    (unasked : s.formats = none) (calls : List CacheCall) :
    firstListing s calls = none ↔
      ∀ entry ∈ since s calls dropsFormats, ∀ runner, entry.2 = .listFormats runner →
        ∃ failure, (supportedFormats runner).outcome entry.1 = .error failure := by
  apply findSome?_since_eq_none_iff
  intro calls call before
  have kept := kept_run unread unasked calls
  have empty : (afterEach perform calls s).formats = none := by
    rw [kept.formats]
    exact congrArg _ before
  generalize afterEach perform calls s = t at empty
  cases call with
  | listFormats runner =>
    simp only [lists?, listing?, listFormats.injEq, forall_eq']
    rw [outcome_supportedFormats empty]
    cases (formatQuery runner).outcome t with
    | ok listing => simp [Except.toOption, Except.map]
    | error failure => simp [Except.toOption, Except.map]
  | _ => simp [lists?]

theorem settingsOnce_run (unread : s.configuration.current = none) (unasked : s.formats = none)
    (calls : List CacheCall) : SettingsOnce s calls (afterEach perform calls s) := by
  have kept := kept_run unread unasked calls
  have none_iff := firstSettings_eq_none_iff unread unasked calls
  generalize afterEach perform calls s = t at kept
  have inUse := kept.inUse
  constructor
  · exact kept.configuration
  · intro settings first
    have cached : t.configuration.current = some settings := by
      rw [kept.configuration]
      exact first
    have valid : t.configuration.inUse = .ok settings := by rw [Configuration.inUse, cached]
    rw [Session.settings_of_ok valid, Configuration.loaded_of_current cached]
  · intro settings first valid
    rw [Session.settings_of_ok (inUse.trans valid),
      Configuration.loaded_of_ok (inUse.trans valid), kept.configuration]
  · intro failure invalid
    exact Session.settings_of_error (inUse.trans invalid)
  · intro factory settings valid
    exact factory.make_of_ok (inUse.trans valid)
  · intro factory failure invalid
    exact factory.make_of_error (inUse.trans invalid)
  · rw [← inUse]
    cases found : t.configuration.inUse with
    | ok settings => exact outcome_of_ok (bind_of_ok (Session.settings_of_ok found))
    | error failure => exact outcome_of_error (bind_of_error (Session.settings_of_error found))
  · exact none_iff

/-- The reference after one more call for the formats. -/
theorem firstListing_concat (before : firstListing s calls = none) (runner : Runner) :
    firstListing s (calls ++ [.listFormats runner]) =
      listing? runner (afterEach perform calls s) := by
  unfold firstListing at *
  rw [findSome?_since_concat, before, Option.none_or]
  rfl

theorem formatsOnce_run (unread : s.configuration.current = none) (unasked : s.formats = none)
    (calls : List CacheCall) : FormatsOnce s calls (afterEach perform calls s) := by
  have kept := kept_run unread unasked calls
  have inUse := kept.inUse
  have formats := kept.formats
  have empty (none : firstListing s calls = none) :
      (afterEach perform calls s).formats = .none := by
    rw [formats, none, Option.map_none]
  have cached {listing : String} (first : firstListing s calls = some listing) (runner : Runner) :
      supportedFormats runner (afterEach perform calls s) =
        .ok (ContainerFormat.ofListing listing) (afterEach perform calls s) := by
    apply supportedFormats_of_some
    rw [formats, first, Option.map_some]
  constructor
  · intro listing first runner
    exact cached first runner
  · intro runner listing none succeeded
    obtain ⟨u, done, -, -, stored⟩ :=
      supportedFormats_of_ok (empty none) (eq_ok_of_outcome succeeded)
    refine ⟨u, done, stored, ?_⟩
    rw [firstListing_concat none, listing?, succeeded]
    rfl
  · intro runner failure u none failed
    refine ⟨supportedFormats_of_error (empty none) failed, ?_, ?_⟩
    · have still := (reads_formatQuery runner (afterEach perform calls s)).2
      rw [after_of_error failed, empty none] at still
      exact still
    · rw [firstListing_concat none, listing?, outcome_of_error failed]
      rfl
  · intro ref recorder settings present valid
    cases first : firstListing s calls with
    | some listing =>
      rw [after_of_ok (cached first _)]
      exact ⟨recorder, present, (List.append_nil _).symm⟩
    | none =>
      exact ⟨_, told_supportedFormats (empty first) present (inUse.trans valid), rfl⟩
  · exact firstListing_eq_none_iff unread unasked calls

/-- **The caches answer from the first success.** Take any calls that change the environment or the
settings file, read the settings, make and run commands, ask for the formats or drop a cache, failed
ones included, in a session that has read neither cache, whatever its reader of settings takes from
the two. The settings are those that were there at the first reading that succeeded since they were
dropped last; ones that do not validate are not kept. The formats are those of the first listing
that a query gave since they were dropped last, be they none at all; a query is run when there was
no such success, and one that fails is not kept. -/
theorem firstSuccess_of_calls {s : Session} (unread : s.configuration.current = none)
    (unasked : s.formats = none) (calls : List CacheCall) :
    SettingsOnce s calls (afterEach perform calls s) ∧
      FormatsOnce s calls (afterEach perform calls s) := by
  constructor
  · exact settingsOnce_run unread unasked calls
  · exact formatsOnce_run unread unasked calls

/-- Recorders of a program that fails, and of two programs with different listings. -/
def recorders : Session :=
  (do let _ ← Recorder.enter ⟨"", "", 1⟩ none
      let _ ← Recorder.enter ⟨"--\n DE mp4 MP4", "", 0⟩ none
      let _ ← Recorder.enter ⟨"", "", 0⟩ none : Step Unit).after (.initial Settings.fromVariables)

/-- A reading and a query that fail, each followed by one that succeeds. -/
def retries : List CacheCall := [
  .setVariable "FFMPEG_COMPOSER_TIMEOUT" "soon", .readSettings,
  .setVariable "FFMPEG_COMPOSER_TIMEOUT" "5", .listFormats (.recorder ⟨0⟩),
  .setVariable "FFMPEG_COMPOSER_TIMEOUT" "9", .listFormats (.recorder ⟨1⟩)]

theorem firstSuccess_of_retries :
    let t := afterEach perform retries recorders
    supportedFormats (.recorder ⟨2⟩) t = .ok [⟨"mp4", "MP4", true, true⟩] t ∧
      (Command.limit .null).outcome t = .ok (.int 5) := by
  obtain ⟨settings, formats⟩ := firstSuccess_of_calls (s := recorders) rfl rfl retries
  have listing : firstListing recorders retries = some "--\n DE mp4 MP4" := by decide +kernel
  have timeout : (answer recorders retries).map Settings.timeout = .ok (.int 5) := rfl
  have parsed : ContainerFormat.ofListing "--\n DE mp4 MP4" = [⟨"mp4", "MP4", true, true⟩] := by
    decide +kernel
  intro t
  constructor
  · have held := formats.held _ listing (.recorder ⟨2⟩)
    rwa [parsed] at held
  · exact settings.limited.trans timeout

end CacheCall

end MediaCommand
