import MediaCommand.Proofs.Command.OutputPlace
import MediaCommand.Proofs.Command.SettingsReads
import MediaCommand.Proofs.Execution.Telling

/-!
# The query for the container formats

`formatQuery` is what a call for the formats runs when it has none: one line that is handed over
within the time limit of the settings in use. The call ends as its query does
(`outcome_supportedFormats`), and a listing is kept before anything else can happen
(`supportedFormats_of_ok`).
-/

namespace MediaCommand

open MediaCommand.Action

/-- The arguments of the query for the container formats. -/
def formatArguments : ArgumentList :=
  ⟨[⟨"-hide_banner", none, false, 0⟩, ⟨"-formats", none, false, 1⟩], 2⟩

/-- The query for the container formats: a line is handed over within the time limit of the
settings in use, and a program that ends with a code other than zero has failed. -/
def formatQuery (runner : Runner) : Step String := do
  let settings ← Session.configure Configuration.settings
  modify fun s => { s with commands := s.commands.add ⟨.help, settings.ffmpeg, formatArguments⟩ }
  let result ← Command.runLine runner [settings.ffmpeg, "-hide_banner", "-formats"] settings.timeout
  if result.exitCode ≠ 0 then throw (.commandFailed settings.ffmpeg result.exitCode)
  return result.stdout

/-- Keeps the formats of a listing. -/
def keepListing (listing : String) : Step (List ContainerFormat) := do
  let formats := ContainerFormat.ofListing listing
  modify fun s => { s with formats := some formats }
  Session.log .debug "Loaded %d supported formats" [.int formats.length]
  return formats

theorem formatQuery_apply (runner : Runner) (s : Session) :
    (do let ref ← Command.encoderHelp
        Command.edit ref do
          ArgumentList.flag .hideBanner
          ArgumentList.flag .formats
        Command.output ref runner .null : Step String) s = formatQuery runner s := by
  cases found : s.configuration.inUse with
  | error failure =>
    have failed := Session.settings_of_error found
    exact (bind_of_error (bind_of_error failed)).trans (bind_of_error failed).symm
  | ok settings =>
    have read := Session.settings_of_ok found
    let ready : Session := { s with
      configuration := s.configuration.loaded
      commands := s.commands.add ⟨.help, settings.ffmpeg, formatArguments⟩ }
    have made : Command.encoderHelp s = .ok s.commands.next { s with
        configuration := s.configuration.loaded
        commands := s.commands.add ⟨.help, settings.ffmpeg, .empty⟩ } := bind_of_ok read
    have edited : Command.edit s.commands.next
        (do ArgumentList.flag .hideBanner
            ArgumentList.flag .formats)
        { s with
          configuration := s.configuration.loaded
          commands := s.commands.add ⟨.help, settings.ffmpeg, .empty⟩ } = .ok () ready := by
      refine (Command.edit_apply (Store.get?_add_next _ _) _).trans ?_
      refine (within_of_ok (t := ⟨s.workspace.tokens, formatArguments⟩) rfl).trans ?_
      rw [Command.settled, Store.put_add_next]
    have again : Session.configure Configuration.settings ready = .ok settings ready := by
      have valid : ready.configuration.inUse = .ok settings :=
        (Configuration.inUse_loaded _).trans found
      rw [Session.settings_of_ok valid, Configuration.loaded_loaded]
    have limited : Command.limit .null ready = .ok settings.timeout ready := bind_of_ok again
    have there : Command.read s.commands.next ready =
        .ok ⟨.help, settings.ffmpeg, formatArguments⟩ ready :=
      Command.read_apply (Store.get?_add_next _ _)
    have line : Command.commandLine ⟨.help, settings.ffmpeg, formatArguments⟩ =
      [settings.ffmpeg, "-hide_banner", "-formats"] := rfl
    rw [bind_of_ok made, bind_of_ok edited, formatQuery, bind_of_ok read, modify_bind_apply]
    simp only [Command.output, Command.run, bind, EStateM.bind, limited, there, line]
    cases Command.runLine runner [settings.ffmpeg, "-hide_banner", "-formats"] settings.timeout
        ready with
    | error failure t => rfl
    | ok result t =>
      by_cases zero : result.exitCode = 0
      · simp only [zero, Value.isTruthy, ne_eq, not_true_eq_false, decide_false, Bool.and_false,
          Bool.false_eq_true, if_false]
        rfl
      · simp only [zero, Value.isTruthy, ne_eq, not_false_eq_true, decide_true, Bool.and_self,
          if_true]
        rfl

theorem supportedFormats_of_some {runner : Runner} {s : Session} {formats : List ContainerFormat}
    (kept : s.formats = some formats) : supportedFormats runner s = .ok formats s := by
  rw [supportedFormats, get_bind_apply, kept]
  rfl

theorem supportedFormats_of_none {s : Session} (empty : s.formats = none) (runner : Runner) :
    supportedFormats runner s = (formatQuery runner >>= keepListing) s := by
  let query : Step String := do
    let ref ← Command.encoderHelp
    Command.edit ref do
      ArgumentList.flag .hideBanner
      ArgumentList.flag .formats
    Command.output ref runner .null
  have opened : supportedFormats runner s = (query >>= keepListing) s := by
    rw [supportedFormats, get_bind_apply, empty]
    simp only [query, bind_assoc]
    rfl
  have same : query s = formatQuery runner s := formatQuery_apply runner s
  rw [opened]
  simp only [bind, EStateM.bind, same]

/-- A listing is kept before it is reported, and reporting it does not fail. -/
theorem keepListing_apply (listing : String) (s : Session) :
    ∃ t, keepListing listing s = .ok (ContainerFormat.ofListing listing) t ∧
      t.configuration = s.configuration ∧ t.recorders = s.recorders ∧
      t.formats = some (ContainerFormat.ofListing listing) := by
  have fillable : Executor.Fillable "Loaded %d supported formats"
    [.int (ContainerFormat.ofListing listing).length] := ⟨⟨_, rfl⟩, _, rfl⟩
  let kept : Session := { s with formats := some (ContainerFormat.ofListing listing) }
  obtain ⟨journal, logged⟩ := Executor.log_apply fillable .debug kept.runtime
  let last : Session := { kept with runtime := { kept.runtime with journal } }
  have reported : Session.log .debug "Loaded %d supported formats"
      [.int (ContainerFormat.ofListing listing).length] kept = .ok () last := by
    rw [Session.log, Session.running, within_of_ok logged]
  refine ⟨last, ?_, rfl, rfl, rfl⟩
  rw [keepListing, modify_bind_apply]
  exact bind_of_ok reported

theorem supportedFormats_of_error {runner : Runner} {s t : Session} {failure : Failure}
    (empty : s.formats = none) (asked : formatQuery runner s = .error failure t) :
    supportedFormats runner s = .error failure t := by
  rw [supportedFormats_of_none empty, bind_of_error asked]

theorem supportedFormats_of_ok {runner : Runner} {s t : Session} {listing : String}
    (empty : s.formats = none) (asked : formatQuery runner s = .ok listing t) :
    ∃ u, supportedFormats runner s = .ok (ContainerFormat.ofListing listing) u ∧
      u.configuration = t.configuration ∧ u.recorders = t.recorders ∧
      u.formats = some (ContainerFormat.ofListing listing) := by
  obtain ⟨u, done, left⟩ := keepListing_apply listing t
  refine ⟨u, ?_, left⟩
  rw [supportedFormats_of_none empty, bind_of_ok asked, done]

theorem reads_formatQuery (runner : Runner) :
    Session.Reads (fun _ => true) (formatQuery runner) := by
  apply Session.reads_settings.bind
  intro settings
  refine .bind (.modify fun _ => ⟨rfl, rfl⟩) fun _ =>
    .bind (Command.sameCaches_runLine _ _ _) fun result => ?_
  dsimp only
  split
  · exact .bind (.throw _) fun _ => .pure _
  · exact .pure _

/-- The listing that a query finds, if it succeeds. -/
def listing? (runner : Runner) (s : Session) : Option String :=
  ((formatQuery runner).outcome s).toOption

/-- What a call for the formats leaves of the caches. -/
theorem caches_supportedFormats (runner : Runner) (s : Session) :
    ((supportedFormats runner).after s).configuration =
        (if s.formats.isNone then s.configuration.loaded else s.configuration) ∧
      ((supportedFormats runner).after s).formats =
        s.formats.or ((listing? runner s).map ContainerFormat.ofListing) := by
  cases held : s.formats with
  | some formats =>
    rw [after_of_ok (supportedFormats_of_some held)]
    exact ⟨rfl, held⟩
  | none =>
    obtain ⟨configuration, formats⟩ := reads_formatQuery runner s
    cases asked : formatQuery runner s with
    | error failure t =>
      rw [after_of_error asked] at configuration formats
      rw [after_of_error (supportedFormats_of_error held asked), listing?, outcome_of_error asked]
      exact ⟨configuration, formats.trans held⟩
    | ok listing t =>
      rw [after_of_ok asked] at configuration
      obtain ⟨u, done, same, -, kept⟩ := supportedFormats_of_ok held asked
      rw [after_of_ok done, listing?, outcome_of_ok asked]
      exact ⟨same.trans configuration, kept⟩

/-- Without formats the call ends as its query does. -/
theorem outcome_supportedFormats {s : Session} (empty : s.formats = none) (runner : Runner) :
    (supportedFormats runner).outcome s =
      ((formatQuery runner).outcome s).map ContainerFormat.ofListing := by
  cases asked : formatQuery runner s with
  | error failure t =>
    rw [outcome_of_error (supportedFormats_of_error empty asked), outcome_of_error asked]
    rfl
  | ok listing t =>
    obtain ⟨u, done, -⟩ := supportedFormats_of_ok empty asked
    rw [outcome_of_ok done, outcome_of_ok asked]
    rfl

/-- A recorder is told every line that is handed over to it. -/
theorem told_runLine {ref : Ref .recorder} {recorder : Recorder} {s : Session}
    (present : s.recorders.get? ref = some recorder) (line : List String) (timeout : Value) :
    ((Command.runLine (.recorder ref) line timeout).after s).recorders.get? ref =
      some { recorder with calls := recorder.calls ++ [(line, timeout)] } := by
  rw [after_congr (Command.runLine_recorder present line timeout)]
  cases recorder.answer with
  | ok result => exact Store.get?_put_self present
  | error failure => exact Store.get?_put_self present

theorem told_formatQuery {ref : Ref .recorder} {recorder : Recorder} {s : Session}
    {settings : Settings} (present : s.recorders.get? ref = some recorder)
    (valid : s.configuration.inUse = .ok settings) :
    ((formatQuery (.recorder ref)).after s).recorders.get? ref =
      some { recorder with calls := recorder.calls ++
        [([settings.ffmpeg, "-hide_banner", "-formats"], settings.timeout)] } := by
  let ready : Session := { s with
    configuration := s.configuration.loaded
    commands := s.commands.add ⟨.help, settings.ffmpeg, formatArguments⟩ }
  let line : List String := [settings.ffmpeg, "-hide_banner", "-formats"]
  have told := told_runLine (s := ready) present line settings.timeout
  have opened : (formatQuery (.recorder ref)).after s =
      (Command.runLine (.recorder ref) line settings.timeout).after ready := by
    rw [formatQuery, after_bind_of_ok (Session.settings_of_ok valid)]
    refine (after_bind_congr (fun result t => ?_) ready).trans
      (after_bind_pure _ (fun result => result.stdout) ready)
    dsimp only
    split
    · rfl
    · rfl
  rw [opened]
  exact told

/-- Without formats the call tells a recorder the query, and nothing else. -/
theorem told_supportedFormats {ref : Ref .recorder} {recorder : Recorder} {s : Session}
    {settings : Settings} (empty : s.formats = none)
    (present : s.recorders.get? ref = some recorder)
    (valid : s.configuration.inUse = .ok settings) :
    ((supportedFormats (.recorder ref)).after s).recorders.get? ref =
      some { recorder with calls := recorder.calls ++
        [([settings.ffmpeg, "-hide_banner", "-formats"], settings.timeout)] } := by
  have told := told_formatQuery present valid
  cases asked : formatQuery (.recorder ref) s with
  | error failure t =>
    rw [after_of_error asked] at told
    rwa [after_of_error (supportedFormats_of_error empty asked)]
  | ok listing t =>
    rw [after_of_ok asked] at told
    obtain ⟨u, done, -, same, -⟩ := supportedFormats_of_ok empty asked
    rwa [after_of_ok done, same]

end MediaCommand
