import MediaCommand.Proofs.Command.Calls

/-!
# Operations that read the settings

Settings are read by whatever makes a command, and by a run that is given no time limit. What a
reading finds is `Configuration.inUse`, and `Configuration.loaded` is what it leaves. Operations are
sorted by what they do to the caches of a session: nothing (`SameCaches`), perhaps a reading
(`Looks`), or a reading in the sessions that a test picks out (`Reads`).
-/

namespace MediaCommand

open MediaCommand.Action

namespace Configuration

/-- What reading the settings finds: the ones in use, or those that can be read now. -/
def inUse (c : Configuration) : Except Failure Settings :=
  match c.current with
  | some settings => .ok settings
  | none => c.read []

/-- The configuration after the settings have been read. Those that do not validate are not
kept. -/
def loaded (c : Configuration) : Configuration := { c with current := c.inUse.toOption }

theorem loaded_of_error {c : Configuration} {failure : Failure}
    (invalid : c.inUse = .error failure) : c.loaded = c := by
  obtain ⟨reader, environment, file, current⟩ := c
  cases current with
  | some settings => cases invalid
  | none => rw [loaded, invalid, Except.toOption]

theorem loaded_of_ok {c : Configuration} {settings : Settings} (valid : c.inUse = .ok settings) :
    c.loaded = { c with current := some settings } := by
  rw [loaded, valid, Except.toOption]

theorem loaded_of_current {c : Configuration} {settings : Settings}
    (cached : c.current = some settings) : c.loaded = c := by
  have valid : c.inUse = .ok settings := by rw [inUse, cached]
  rw [loaded_of_ok valid, ← cached]

theorem loaded_eq (c : Configuration) :
    c.loaded = { c with current := c.current.or (c.read []).toOption } := by
  obtain ⟨reader, environment, file, current⟩ := c
  cases current with
  | some settings => rfl
  | none => rfl

theorem inUse_loaded (c : Configuration) : c.loaded.inUse = c.inUse := by
  cases found : c.inUse with
  | ok settings => rw [loaded_of_ok found, inUse]
  | error failure => rw [loaded_of_error found, found]

theorem loaded_loaded (c : Configuration) : c.loaded.loaded = c.loaded := by
  rw [loaded, inUse_loaded]
  rfl

theorem settings_apply (c : Configuration) :
    settings c = Action.ofExcept c.inUse c.loaded := by
  obtain ⟨reader, environment, file, current⟩ := c
  cases current with
  | some settings => rfl
  | none =>
    simp only [settings, loaded, inUse, get_bind_apply]
    cases read ⟨reader, environment, file, none⟩ [] with
    | ok settings => rfl
    | error failure => rfl

end Configuration

namespace Session

/-- The caches as they were. -/
def SameCaches (before after : Session) : Prop :=
  after.configuration = before.configuration ∧ after.formats = before.formats

instance : IsPreorder Session SameCaches where
  refl _ := ⟨rfl, rfl⟩
  trans _ _ _ first second := ⟨second.1.trans first.1, second.2.trans first.2⟩

/-- The caches as they were, but for settings that may have been read. -/
def Looks (before after : Session) : Prop :=
  (after.configuration = before.configuration ∨
    after.configuration = before.configuration.loaded) ∧ after.formats = before.formats

instance : IsPreorder Session Looks where
  refl _ := ⟨.inl rfl, rfl⟩
  trans := by
    rintro first second third ⟨early, kept⟩ ⟨late, still⟩
    refine ⟨?_, still.trans kept⟩
    rcases early with early | early
    · rwa [← early]
    · rw [early, Configuration.loaded_loaded, or_self] at late
      exact .inr late

/-- The operation reads the settings in the sessions that a test picks out, and does nothing else
to the caches. -/
def Reads {α : Type} (asks : Session → Bool) (action : Step α) : Prop :=
  ∀ s, (action.after s).configuration =
      (if asks s then s.configuration.loaded else s.configuration) ∧
    (action.after s).formats = s.formats

theorem looks_of_sameCaches {α : Type} {action : Step α} (same : Respects SameCaches action) :
    Respects Looks action := same.mono fun _ _ kept => ⟨.inl kept.1, kept.2⟩

theorem reads_of_sameCaches {α : Type} {action : Step α} (same : Respects SameCaches action) :
    Reads (fun _ => false) action := same

theorem Reads.looks {α : Type} {asks : Session → Bool} {action : Step α}
    (reads : Reads asks action) : Respects Looks action := by
  intro s
  obtain ⟨configuration, formats⟩ := reads s
  refine ⟨?_, formats⟩
  rw [configuration]
  cases asks s with
  | true => exact .inr rfl
  | false => exact .inl rfl

theorem reads_settings : Reads (fun _ => true) (configure Configuration.settings) := by
  intro s
  have left : Configuration.settings.after s.configuration = s.configuration.loaded := by
    rw [after, Configuration.settings_apply]
    cases s.configuration.inUse with
    | ok settings => rfl
    | error failure => rfl
  have whole : (configure Configuration.settings).after s =
      { s with configuration := s.configuration.loaded } := by
    rw [configure, after_within, left]
  rw [whole]
  exact ⟨rfl, rfl⟩

/-- After a first reading, whatever else reads finds the same. -/
theorem Reads.looks_bind {α β : Type} {x : Step α} {f : α → Step β}
    (first : Reads (fun _ => true) x) (next : ∀ a, Respects Looks (f a)) :
    Reads (fun _ => true) (x >>= f) := by
  intro s
  obtain ⟨configuration, formats⟩ := first s
  cases run : x s with
  | error failure t =>
    rw [after_of_error run] at configuration formats
    rw [after_bind_of_error run]
    exact ⟨configuration, formats⟩
  | ok a t =>
    rw [after_of_ok run, if_pos rfl] at configuration
    rw [after_of_ok run] at formats
    obtain ⟨again, still⟩ := next a t
    rw [configuration, Configuration.loaded_loaded, or_self] at again
    rw [after_bind_of_ok run, again, still]
    exact ⟨rfl, formats⟩

/-- What comes before leaves the caches alone; when it succeeds, what follows may read. -/
theorem reads_bind {α β : Type} {x : Step α} {f : α → Step β} {asks : Bool}
    (first : Respects SameCaches x) (next : ∀ a, Reads (fun _ => asks) (f a)) :
    Reads (fun s => (x.outcome s).isOk && asks) (x >>= f) := by
  intro s
  obtain ⟨configuration, formats⟩ := first s
  cases run : x s with
  | error failure t =>
    rw [after_of_error run] at configuration formats
    simp only [after_bind_of_error run, outcome_of_error run]
    exact ⟨configuration, formats⟩
  | ok a t =>
    rw [after_of_ok run] at configuration formats
    simp only [after_bind_of_ok run, outcome_of_ok run]
    rw [← configuration, ← formats]
    exact next a t

/-- What follows leaves the caches alone. -/
theorem Reads.bind {α β : Type} {x : Step α} {f : α → Step β} {asks : Session → Bool}
    (first : Reads asks x) (next : ∀ a, Respects SameCaches (f a)) : Reads asks (x >>= f) := by
  intro s
  obtain ⟨configuration, formats⟩ := first s
  cases run : x s with
  | error failure t =>
    rw [after_of_error run] at configuration formats
    rw [after_bind_of_error run]
    exact ⟨configuration, formats⟩
  | ok a t =>
    rw [after_of_ok run] at configuration formats
    obtain ⟨kept, still⟩ := next a t
    rw [after_bind_of_ok run, kept, still]
    exact ⟨configuration, formats⟩

theorem sameCaches_running {α : Type} (action : Running α) :
    Respects SameCaches (running action) := .within action fun _ _ => ⟨rfl, rfl⟩

theorem sameCaches_log (level : LogLevel) (template : String) (arguments : List Value) :
    Respects SameCaches (log level template arguments) := sameCaches_running _

theorem sameCaches_journal {α : Type} (action : Action Journal α) :
    Respects SameCaches (journal action) := sameCaches_running _

/-- Logging is set up by the settings in use. -/
theorem reads_configureLogging : Reads (fun _ => true) (configureLogging none) :=
  reads_settings.bind fun _ => .bind (sameCaches_journal _) fun _ => sameCaches_journal _

end Session

namespace Command

open Session

theorem sameCaches_enter (kind : CommandKind) (binary : String) :
    Respects SameCaches (enter kind binary) := fun _ => ⟨rfl, rfl⟩

theorem sameCaches_read (ref : Ref .command) : Respects SameCaches (read ref) := .require _

theorem sameCaches_edit {α : Type} (ref : Ref .command) (edit : ArgumentList.Edit α) :
    Respects SameCaches (Command.edit ref edit) :=
  respects_edit (fun _ _ _ => ⟨rfl, rfl⟩) edit

theorem sameCaches_runLine (runner : Runner) (line : List String) (timeout : Value) :
    Respects SameCaches (runLine runner line timeout) := by
  unfold runLine
  split
  · exact sameCaches_running _
  · exact sameCaches_running _
  · exact .bind (.require _) fun recorder =>
      .bind (.modify fun _ => ⟨rfl, rfl⟩) fun _ => .ofExcept _

/-- Whether a time limit is left to the settings. -/
def unlimited : Value → Bool
  | .null => true
  | _ => false

theorem reads_limit (timeout : Value) :
    Reads (fun _ => unlimited timeout) (limit timeout) := by
  cases timeout with
  | null => exact reads_settings.bind fun _ => .pure _
  | _ => exact reads_of_sameCaches (.pure _)

/-- A run that is given no time limit reads the settings, whatever comes of it. -/
theorem reads_run (ref : Ref .command) (runner : Runner) (timeout check : Value) :
    Reads (fun _ => unlimited timeout) (run ref runner timeout check) := by
  apply (reads_limit timeout).bind
  intro limit
  refine .bind (sameCaches_read ref) fun _ => .bind (sameCaches_runLine _ _ _) fun _ => ?_
  split
  · exact .bind (.throw _) fun _ => .pure _
  · exact .pure _

theorem reads_runTo (ref : Ref .command) (path : Value) (runner : Runner) (timeout : Value) :
    Reads (fun s => ((edit ref (ArgumentList.setOutput path)).outcome s).isOk &&
      unlimited timeout) (runTo ref path runner timeout) := by
  apply reads_bind (sameCaches_edit ref _)
  intro _
  apply (reads_run ref runner timeout (.bool true)).bind
  intro _
  exact .bind (sameCaches_log _ _ _) fun _ => .pure _

theorem reads_probe (depth : Nat) (ref : Ref .command) (runner : Runner) (timeout : Value) :
    Reads (fun s => ((edit ref (ArgumentList.set .printFormat (.text "json"))).outcome s).isOk &&
      unlimited timeout) (probe depth ref runner timeout) := by
  apply reads_bind (sameCaches_edit ref _)
  intro _
  apply (reads_run ref runner timeout (.bool false)).bind
  intro result
  split
  · exact .bind (.ofExcept _) fun _ => .pure _
  · exact .ofExcept _

theorem reads_prober : Reads (fun _ => true) prober :=
  reads_settings.bind fun _ => sameCaches_enter _ _

theorem reads_probeSource (depth : Nat) (path timeout : Value) (runner : Runner) :
    Reads (fun _ => true) (probeSource depth path timeout runner) := by
  apply reads_prober.looks_bind
  intro ref
  apply Respects.bind (looks_of_sameCaches (sameCaches_edit ref _))
  intro _
  apply Respects.bind (looks_of_sameCaches (sameCaches_read ref))
  intro command
  apply Respects.bind
  · apply Respects.tryCatch
    · exact .bind (reads_probe depth ref runner timeout).looks fun _ => .pure _
    · intro failure
      split
      · exact .pure _
      · exact .pure _
      · exact .pure _
      · exact .bind (.throw _) fun _ => .pure _
  · intro ended
    cases ended with
    | _ => exact .pure _

end Command

/-! ## Makers of commands -/

/-- What makes a command with a program of the settings in use. -/
inductive Factory where
  | encoder (overwrite : Value)
  | prober
  | encoderHelp
  | proberHelp

namespace Factory

def make : Factory → Step (Ref .command)
  | .encoder overwrite => Command.encoder overwrite
  | .prober => Command.prober
  | .encoderHelp => Command.encoderHelp
  | .proberHelp => Command.proberHelp

/-- The program of the command. -/
def program : Factory → Settings → String
  | .encoder _, settings | .encoderHelp, settings => settings.ffmpeg
  | .prober, settings | .proberHelp, settings => settings.ffprobe

theorem reads_make (factory : Factory) : Session.Reads (fun _ => true) factory.make := by
  cases factory with
  | encoder overwrite =>
    apply Session.reads_settings.bind
    intro settings
    apply Respects.bind (Command.sameCaches_enter _ _)
    intro ref
    dsimp only
    split
    · exact .bind (Command.sameCaches_edit ref _) fun _ => .pure _
    · exact .pure _
  | _ => exact Session.reads_settings.bind fun _ => Command.sameCaches_enter _ _

end Factory

namespace Session

theorem settings_of_error {s : Session} {failure : Failure}
    (invalid : s.configuration.inUse = .error failure) :
    configure Configuration.settings s = .error failure s := by
  have read := Configuration.settings_apply s.configuration
  rw [invalid, Configuration.loaded_of_error invalid] at read
  exact within_of_error read

theorem settings_of_ok {s : Session} {settings : Settings}
    (valid : s.configuration.inUse = .ok settings) :
    configure Configuration.settings s =
      .ok settings { s with configuration := s.configuration.loaded } := by
  have read := Configuration.settings_apply s.configuration
  rw [valid] at read
  exact within_of_ok read

end Session

namespace Factory

variable {s : Session}

theorem make_of_error (factory : Factory) {failure : Failure}
    (invalid : s.configuration.inUse = .error failure) : factory.make s = .error failure s := by
  have failed := Session.settings_of_error invalid
  cases factory with
  | _ => exact bind_of_error failed

/-- The command that is made has the program of the settings in use. -/
theorem make_of_ok (factory : Factory) {settings : Settings}
    (valid : s.configuration.inUse = .ok settings) :
    ∃ t command, factory.make s = .ok s.commands.next t ∧
      t.commands.get? s.commands.next = some command ∧
      command.binary = factory.program settings := by
  have read := Session.settings_of_ok valid
  have added (kind : CommandKind) (binary : String) :
      (s.commands.add ⟨kind, binary, .empty⟩).get? s.commands.next =
        some ⟨kind, binary, .empty⟩ := Store.get?_add_next _ _
  cases factory with
  | encoder overwrite =>
    let entered : Session := { s with
      configuration := s.configuration.loaded
      commands := s.commands.add ⟨.ffmpeg, settings.ffmpeg, .empty⟩ }
    have present : entered.commands.get? s.commands.next =
      some ⟨.ffmpeg, settings.ffmpeg, .empty⟩ := added _ _
    cases truthy : overwrite.isTruthy with
    | false =>
      refine ⟨entered, _, ?_, present, rfl⟩
      refine (bind_of_ok read).trans ?_
      simp only [truthy]
      rfl
    | true =>
      have built := Command.edit_apply present (ArgumentList.setOverwrite (.bool true))
      have edited := Command.get?_settled present
        ((ArgumentList.setOverwrite (.bool true)).after ⟨s.workspace.tokens, .empty⟩)
      refine ⟨_, _, ?_, edited, rfl⟩
      refine (bind_of_ok read).trans ?_
      simp only [truthy]
      exact bind_of_ok built
  | _ => exact ⟨_, _, (bind_of_ok read).trans rfl, added _ _, rfl⟩

end Factory

end MediaCommand
