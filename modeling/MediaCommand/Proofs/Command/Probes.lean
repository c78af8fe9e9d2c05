import MediaCommand.Proofs.Command.OutputPlace
import MediaCommand.Proofs.Command.SingleKeys
import MediaCommand.Proofs.Execution.Faults
import MediaCommand.Proofs.Probe.Numerals
import MediaCommand.Proofs.Probe.Result
import MediaCommand.Settings.Variables

/-!
# What a probe asks and what it answers

A probe asks for JSON under one key, hands its line over unchecked, and makes a result of the
answer, whatever that is (`probe_apply`). `probe_explains` puts together what the line says, what
a probe may fail with (`ProbeFault`, never the exit code of the program), which answers make a
result (`ProbeResult.CanBeTold`), and what it tells about the answer (`ProbeResult.Explains`).
-/

namespace MediaCommand

open MediaCommand.Action (FailsOnly)

/-! ## Answers -/

namespace ProbeResult

variable {depth : Nat} {answer : RunResult} {result : ProbeResult}

/-- The result that a probe makes of an answer. -/
def ofAnswer (depth : Nat) (answer : RunResult) : Except Failure ProbeResult :=
  if answer.exitCode ≠ 0 then failed <$> Command.probeError answer
  else ofOutput depth (.text answer.stdout)

/-- The program ended well and wrote a JSON object, with no integer of too many digits. -/
def HasObject (depth : Nat) (answer : RunResult) : Prop :=
  answer.exitCode = 0 ∧
    ∃ entries, Json.document depth answer.stdout.toList = .ok (.mapping entries)

/-- An answer can be told: where the program failed without a word, its exit code is not too long,
and what it wrote otherwise is neither nested too deep nor an object with a format that cannot be
read. -/
structure CanBeTold (depth : Nat) (answer : RunResult) : Prop where
  code : answer.exitCode ≠ 0 → trim answer.stderr.toList = [] → IsConvertible answer.exitCode
  shallow : answer.exitCode = 0 → ∀ container,
    Json.document depth answer.stdout.toList ≠ .error (.nestedTooDeep container)
  format : answer.exitCode = 0 → ∀ entries,
    Json.document depth answer.stdout.toList = .ok (.mapping entries) → CanBeRead (formatOf entries)

/-- What a result should tell about an answer: a success that there is an object, and a failure why
there is none. -/
structure Explains (depth : Nat) (result : ProbeResult) (answer : RunResult) : Prop where
  success_iff : result.success = true ↔ HasObject depth answer
  silent : result.success = true → result.error = ""
  told : result.success = false → result.error ≠ "" ∧ result.raw = none
  blank : answer.exitCode ≠ 0 → trim answer.stderr.toList = [] →
    result.error = "ffprobe exited with code " ++ toString answer.exitCode

/-- The words of a failed program are told, and where there are none its exit code is. -/
theorem probeError_cases (answer : RunResult) :
    (trim answer.stderr.toList ≠ [] ∧
      Command.probeError answer = .ok (String.ofList (trim answer.stderr.toList))) ∨
    trim answer.stderr.toList = [] ∧ Command.probeError answer =
      if IsConvertible answer.exitCode then
        .ok ("ffprobe exited with code " ++ toString answer.exitCode)
      else .error .integerTooLong := by
  by_cases blank : trim answer.stderr.toList = []
  · refine .inr ⟨blank, ?_⟩
    have empty : ¬String.ofList (trim answer.stderr.toList) ≠ "" := by simp [blank]
    have spelled : (Value.int answer.exitCode).spelled = if IsConvertible answer.exitCode then
        .ok (toString answer.exitCode) else .error .integerTooLong := by
      unfold Value.spelled
      exact if_congr (decide_eq_true_iff (p := IsConvertible answer.exitCode)) rfl rfl
    simp only [Command.probeError, if_neg empty, spelled]
    split <;> rfl
  · refine .inl ⟨blank, ?_⟩
    have some : String.ofList (trim answer.stderr.toList) ≠ "" := by simpa using blank
    simp only [Command.probeError, if_pos some]
    rfl

theorem probeError_eq_ok {error : String} (told : Command.probeError answer = .ok error) :
    error ≠ "" ∧ (trim answer.stderr.toList = [] →
      error = "ffprobe exited with code " ++ toString answer.exitCode) := by
  rcases probeError_cases answer with ⟨words, known⟩ | ⟨blank, known⟩
  · cases known.symm.trans told
    exact ⟨by simpa using words, fun blank => absurd blank words⟩
  · rw [known] at told
    split at told
    · cases told
      exact ⟨by simp, fun _ => rfl⟩
    · cases told

theorem probeError_returns_iff : (∃ error, Command.probeError answer = .ok error) ↔
    (trim answer.stderr.toList = [] → IsConvertible answer.exitCode) := by
  rcases probeError_cases answer with ⟨words, known⟩ | ⟨blank, known⟩
  · exact iff_of_true ⟨_, known⟩ fun blank => absurd blank words
  · rw [known, forall_prop_of_true blank]
    split
    · next short => exact iff_of_true ⟨_, rfl⟩ short
    · next long => exact iff_of_false (fun ⟨_, told⟩ => by cases told) long

theorem probeError_eq_error {failure : Failure}
    (fails : Command.probeError answer = .error failure) : failure = .integerTooLong := by
  rcases probeError_cases answer with ⟨-, known⟩ | ⟨-, known⟩
  · cases known.symm.trans fails
  · rw [known] at fails
    split at fails
    · cases fails
    · cases fails
      rfl

theorem ofAnswer_of_failed (bad : answer.exitCode ≠ 0) :
    ofAnswer depth answer = failed <$> Command.probeError answer := if_pos bad

theorem ofAnswer_of_ended (ended : answer.exitCode = 0) :
    ofAnswer depth answer = ofOutput depth (.text answer.stdout) := if_neg (not_not.2 ended)

/-- A result explains the answer that it was made of. -/
theorem explains_ofAnswer (made : ofAnswer depth answer = .ok result) :
    result.Explains depth answer := by
  by_cases ended : answer.exitCode = 0
  · rw [ofAnswer_of_ended ended] at made
    rcases ofOutput_cases depth answer.stdout with ⟨_, -, known⟩ | ⟨entries, read, known⟩ |
      ⟨-, other, error, known, told⟩
    · cases known.symm.trans made
    · obtain ⟨_, -, -, -, -, success, silent⟩ := ofDocument_eq_ok (known.symm.trans made)
      exact {
        success_iff := iff_of_true success ⟨ended, entries, read⟩
        silent := fun _ => silent
        told := fun failure => absurd (success.symm.trans failure) (by decide)
        blank := fun bad => absurd ended bad }
    · cases known.symm.trans made
      exact {
        success_iff := iff_of_false Bool.false_ne_true fun ⟨_, entries, read⟩ => other entries read
        silent := fun success => absurd success Bool.false_ne_true
        told := fun _ => ⟨told, rfl⟩
        blank := fun bad => absurd ended bad }
  · rw [ofAnswer_of_failed ended] at made
    obtain ⟨error, named, rfl⟩ := except_map_eq_ok.1 made
    obtain ⟨told, code⟩ := probeError_eq_ok named
    exact {
      success_iff := iff_of_false Bool.false_ne_true fun object => ended object.1
      silent := fun success => absurd success Bool.false_ne_true
      told := fun _ => ⟨told, rfl⟩
      blank := fun _ => code }

/-- An answer has a result exactly when it can be told. -/
theorem ofAnswer_returns_iff :
    (∃ result, ofAnswer depth answer = .ok result) ↔ CanBeTold depth answer := by
  by_cases ended : answer.exitCode = 0
  · rw [ofAnswer_of_ended ended]
    rcases ofOutput_cases depth answer.stdout with ⟨container, read, known⟩ |
      ⟨entries, read, known⟩ | ⟨shallow, other, error, known, -⟩
    · rw [known]
      exact iff_of_false (fun ⟨_, made⟩ => by cases made) fun told =>
        told.shallow ended container read
    · rw [known, ofDocument_returns_iff]
      constructor
      · intro readable
        refine ⟨fun bad => absurd ended bad, fun _ container deep => ?_, fun _ others same => ?_⟩
        · cases deep.symm.trans read
        · cases same.symm.trans read
          exact readable
      · intro told
        exact told.format ended entries read
    · exact iff_of_true ⟨_, known⟩ ⟨fun bad => absurd ended bad, fun _ => shallow,
        fun _ entries read => absurd read (other entries)⟩
  · have coded : (∃ result, ofAnswer depth answer = .ok result) ↔
        ∃ error, Command.probeError answer = .ok error := by
      rw [ofAnswer_of_failed ended]
      cases Command.probeError answer with
      | ok error => exact iff_of_true ⟨_, rfl⟩ ⟨_, rfl⟩
      | error failure =>
        exact iff_of_false (fun ⟨_, told⟩ => by cases told) fun ⟨_, told⟩ => by cases told
    rw [coded, probeError_returns_iff]
    constructor
    · intro code
      exact ⟨fun _ => code, fun zero => absurd zero ended, fun zero => absurd zero ended⟩
    · intro told
      exact told.code ended

end ProbeResult

/-! ## Failures -/

theorem Configuration.read_fails {c : Configuration} {given : Keyed String Value}
    {failure : Failure} (fails : c.read given = .error failure) :
    ∃ problems, failure = .settings problems := by
  unfold read at fails
  split at fails
  · cases fails
  · cases fails
    exact ⟨_, rfl⟩

/-- The reasons why a probe fails: settings that do not validate, a run that fails, an exit code
that is too long to be told, a document that is nested too deep, or an object with a format that
cannot be read. -/
inductive ProbeFault : Failure → Prop where
  | settings (problems : List (String × String)) : ProbeFault (.settings problems)
  | run {failure : Failure} (fault : RunFault failure) : ProbeFault failure
  | code : ProbeFault .integerTooLong
  | depth (container : String) : ProbeFault (.nestedTooDeep container)
  | format {failure : Failure} (escapes : ProbeResult.Escapes failure) : ProbeFault failure

/-- That the program failed is none of them. -/
theorem ProbeFault.ne_commandFailed {failure : Failure} (fault : ProbeFault failure)
    (program : String) (exitCode : Int) : failure ≠ .commandFailed program exitCode := by
  rintro rfl
  cases fault with
  | run fault => cases fault
  | format escapes =>
    rcases escapes with same | same | ⟨kind, same⟩
    · cases same
    · cases same
    · cases same

theorem ProbeResult.fault_ofAnswer {depth : Nat} {answer : RunResult} {failure : Failure}
    (fails : ofAnswer depth answer = .error failure) : ProbeFault failure := by
  by_cases ended : answer.exitCode = 0
  · rw [ofAnswer_of_ended ended] at fails
    rcases ofOutput_cases depth answer.stdout with ⟨container, -, known⟩ | ⟨_, -, known⟩ |
      ⟨-, -, _, known, -⟩
    · cases known.symm.trans fails
      exact .depth container
    · exact .format (escapes_ofDocument (known.symm.trans fails))
    · cases known.symm.trans fails
  · rw [ofAnswer_of_failed ended, except_map_eq_error] at fails
    rw [probeError_eq_error fails]
    exact .code

namespace Command

variable {ref : Ref .command}

theorem failsOnly_settings : FailsOnly ProbeFault Configuration.settings := by
  refine .get_bind fun c => ?_
  split
  · exact .pure _
  · refine .bind (.ofExcept fun failure fails => ?_) fun _ =>
      .bind (.of_returns fun _ => ⟨_, _, rfl⟩) fun _ => .pure _
    obtain ⟨problems, rfl⟩ := Configuration.read_fails fails
    exact .settings problems

theorem failsOnly_limit (timeout : Value) : FailsOnly ProbeFault (limit timeout) := by
  unfold limit
  split
  · exact .bind (.within failsOnly_settings) fun _ => .pure _
  · exact .pure _

theorem failsOnly_read : FailsOnly ProbeFault (read ref) := .require (.run .noObject) _

theorem failsOnly_runLine (runner : Runner) (line : List String) (timeout : Value) :
    FailsOnly ProbeFault (runLine runner line timeout) := by
  unfold runLine
  split
  · exact .within ((Executor.failsOnly_run _ _).mono fun _ => .run)
  · refine .within (.bind (.of_returns fun _ => ⟨_, _, rfl⟩) fun _ => ?_)
    exact (Executor.failsOnly_run _ _).mono fun _ => .run
  · refine .bind (.require (.run .noObject) _) fun recorder =>
      .bind (.modify _) fun _ => .ofExcept fun failure fails => ?_
    unfold Recorder.answer at fails
    split at fails
    · cases fails
      exact .run (.launch _ _)
    · cases fails

/-- An unchecked run fails for no exit code. -/
theorem failsOnly_run (runner : Runner) (timeout : Value) :
    FailsOnly ProbeFault (run ref runner timeout (.bool false)) := by
  refine .bind (failsOnly_limit timeout) fun _ => .bind failsOnly_read fun _ =>
    .bind (failsOnly_runLine _ _ _) fun _ => ?_
  split
  · next checked => simp [Value.isTruthy] at checked
  · exact .pure _

/-- A text can always be written under a key. -/
theorem failsOnly_write (key text : String) :
    FailsOnly ProbeFault (edit ref (ArgumentList.write key (.text text))) := by
  refine .bind (.get_bind fun s => .bind (.object (.run .noObject) _) fun _ => .pure _)
    fun list => .within (.of_returns fun d => ?_)
  exact ⟨_, _, ArgumentList.write_text key text d⟩

/-- A probe writes its format, runs unchecked and makes a result of the answer. -/
theorem probe_eq (depth : Nat) (ref : Ref .command) (runner : Runner) (timeout : Value) :
    probe depth ref runner timeout = (do
      edit ref (ArgumentList.write "of" (.text "json"))
      let answer ← run ref runner timeout (.bool false)
      Action.ofExcept (ProbeResult.ofAnswer depth answer)) := by
  have made (answer : RunResult) :
      (if answer.exitCode ≠ 0 then do return .failed (← Action.ofExcept (probeError answer))
        else Action.ofExcept (ProbeResult.ofOutput depth (.text answer.stdout)) :
          Step ProbeResult) = Action.ofExcept (ProbeResult.ofAnswer depth answer) := by
    unfold ProbeResult.ofAnswer
    split
    · cases probeError answer <;> rfl
    · rfl
  simp only [← made]
  rfl

theorem failsOnly_probe (depth : Nat) (runner : Runner) (timeout : Value) :
    FailsOnly ProbeFault (probe depth ref runner timeout) := by
  rw [probe_eq]
  exact .bind (failsOnly_write _ _) fun _ => .bind (failsOnly_run runner timeout) fun answer =>
    .ofExcept fun failure fails => ProbeResult.fault_ofAnswer fails

/-! ## What is asked -/

/-- How a command should ask for JSON: one argument says so, in the place of the one for another
format or at the end, and all others are as they were. -/
structure AsksJson (before after : Command) : Prop where
  same : after = { before with arguments := after.arguments }
  placed : ∃ front old back index,
    before.arguments.arguments = front ++ old ++ back ∧
    after.arguments.arguments = front ++ ⟨"-of", some "json", false, index⟩ :: back ∧
    (∀ a ∈ old, a.key = "-of") ∧ (∀ a ∈ front ++ back, a.key ≠ "-of") ∧
    after.commandLine = before.binary :: front.flatMap Argument.tokens ++ ["-of", "json"] ++
      back.flatMap Argument.tokens

/-- The command that a probe hands over. -/
def probing (command : Command) : Command :=
  { command with arguments := command.arguments.assign "of" (some "json") false }

theorem asksJson_probing {command : Command} (kept : command.arguments.AtMostOnce ["of"]) :
    command.AsksJson command.probing := by
  obtain ⟨front, old, back, index, before, after, under, others⟩ :=
    kept.assign_split (List.mem_singleton.2 rfl) (some "json") false
  refine ⟨rfl, front, old, back, index, before, after, under, others, ?_⟩
  rw [commandLine, probing, ArgumentList.render, after]
  have key : commandKey "of" = "-of" := rfl
  simp [Argument.tokens, outputKey, key]

/-- Hands a line over and reads the answer. -/
def inquire (depth : Nat) (line : List String) (runner : Runner) (timeout : Value) :
    Step ProbeResult := do
  let timeout ← limit timeout
  let answer ← runLine runner line timeout
  Action.ofExcept (ProbeResult.ofAnswer depth answer)

/-- An unchecked run hands over the line of the command as it is. -/
theorem run_unchecked (depth : Nat) {s : Session} {command : Command}
    (present : s.commands.get? ref = some command) (runner : Runner) (timeout : Value) :
    (do let answer ← run ref runner timeout (.bool false)
        Action.ofExcept (ProbeResult.ofAnswer depth answer) : Step ProbeResult) s =
      inquire depth command.commandLine runner timeout s := by
  have kept := (sameObjects_limit timeout s).keeps command present
  cases limited : limit timeout s with
  | error failure t =>
    rw [inquire, Action.bind_of_error limited]
    exact Action.bind_of_error (Action.bind_of_error limited)
  | ok wait t =>
    rw [Action.after_of_ok limited] at kept
    have there : read ref t = .ok command t := read_apply kept
    rw [inquire, Action.bind_of_ok limited]
    simp only [run, bind, EStateM.bind, limited, there]
    cases runLine runner command.commandLine wait t with
    | error failure u => rfl
    | ok answer u => rfl

theorem probe_apply (depth : Nat) {s : Session} {command : Command}
    (present : s.commands.get? ref = some command) (runner : Runner) (timeout : Value) :
    probe depth ref runner timeout s = inquire depth command.probing.commandLine runner timeout
      (settled s ref command ⟨s.workspace.tokens, command.probing.arguments⟩) := by
  have written : edit ref (ArgumentList.write "of" (.text "json")) s =
      .ok () (settled s ref command ⟨s.workspace.tokens, command.probing.arguments⟩) :=
    (edit_apply present _).trans (Action.within_of_ok (ArgumentList.write_text _ _ _))
  rw [probe_eq, Action.bind_of_ok written]
  exact run_unchecked depth (get?_settled present _) runner timeout

/-- Once the program has answered, its answer decides what comes of a probe. -/
theorem inquire_answered (depth : Nat) {line : List String} {runner : Runner} {timeout wait : Value}
    {s mid t : Session} {answer : RunResult} (limited : limit timeout s = .ok wait mid)
    (answered : runLine runner line wait mid = .ok answer t) :
    inquire depth line runner timeout s = Action.ofExcept (ProbeResult.ofAnswer depth answer) t := by
  rw [inquire, Action.bind_of_ok limited, Action.bind_of_ok answered]

theorem inquire_eq_ok {depth : Nat} {line : List String} {runner : Runner} {timeout : Value}
    {s t : Session} {result : ProbeResult}
    (done : inquire depth line runner timeout s = .ok result t) :
    ∃ wait mid answer, limit timeout s = .ok wait mid ∧
      runLine runner line wait mid = .ok answer t ∧
      ProbeResult.ofAnswer depth answer = .ok result := by
  obtain ⟨wait, mid, limited, rest⟩ := Action.bind_eq_ok.1 done
  obtain ⟨answer, u, answered, rest⟩ := Action.bind_eq_ok.1 rest
  obtain ⟨made, rfl⟩ := Action.ofExcept_eq_ok.1 rest
  exact ⟨wait, mid, answer, limited, answered, made⟩

/-- **A probe succeeds or explains itself.** Whatever made the command, and whatever calls were made
since, if none of them added a second format: the probe hands over the line of the command with one
argument for the format, which says JSON. That the program failed is never an error. Once the
program has answered there is a result if and only if the answer can be told. A result is a success
if and only if the program ended well with an object, none of whose integers has too many digits. A
success has no error, and a failure has one, but no data. -/
theorem probe_explains {maker : CommandMaker} {s start : Session}
    (made : maker.make s = .ok ref start) {calls : List (BuilderCall ref)}
    (spared : ∀ call ∈ calls, call.repeats "of" = false) (depth : Nat) (runner : Runner)
    (timeout : Value) :
    let now := BuilderCall.afterCalls calls start
    ∃ command asking, now.commands.get? ref = some command ∧ command.AsksJson asking ∧
      let handed := { now with commands := now.commands.put ref asking }
      handed.commands.get? ref = some asking ∧
      probe depth ref runner timeout now = inquire depth asking.commandLine runner timeout handed ∧
      (∀ failure t, probe depth ref runner timeout now = .error failure t →
        ∀ program exitCode, failure ≠ .commandFailed program exitCode) ∧
      (∀ result t, probe depth ref runner timeout now = .ok result t → ∃ wait mid answer,
        limit timeout handed = .ok wait mid ∧
          runLine runner asking.commandLine wait mid = .ok answer t ∧ result.Explains depth answer) ∧
      ∀ wait mid answer t, limit timeout handed = .ok wait mid →
        runLine runner asking.commandLine wait mid = .ok answer t →
          ((∃ result, probe depth ref runner timeout now = .ok result t) ↔
            ProbeResult.CanBeTold depth answer) := by
  intro now
  have spared : ∀ call ∈ calls, ∀ key ∈ ["of"], call.repeats key = false := fun call mem => by
    simpa using spared call mem
  obtain ⟨command, present, kept⟩ := CommandMaker.atMostOnce_calls made spared
  let handed : Session := { now with commands := now.commands.put ref command.probing }
  have asked : probe depth ref runner timeout now =
      inquire depth command.probing.commandLine runner timeout handed :=
    probe_apply depth present runner timeout
  refine ⟨command, command.probing, present, asksJson_probing kept, Store.get?_put_self present,
    asked, ?_, ?_, ?_⟩
  · intro failure t failed program exitCode
    exact (failsOnly_probe depth runner timeout failed).ne_commandFailed program exitCode
  · intro result t done
    obtain ⟨wait, mid, answer, limited, answered, made⟩ := inquire_eq_ok (asked.symm.trans done)
    exact ⟨wait, mid, answer, limited, answered, ProbeResult.explains_ofAnswer made⟩
  · intro wait mid answer t limited answered
    rw [← ProbeResult.ofAnswer_returns_iff, asked, inquire_answered depth limited answered]
    exact exists_congr fun result => Action.ofExcept_eq_ok.trans (and_iff_left rfl)

/-! ## Recorded answers -/

end Command

namespace Json

/-- An object of one member, which is so many sevens. -/
def sevens (n : Nat) : List Char := 
  '\x7b' :: '"' :: 'x' :: '"' :: ':' :: (List.replicate n '7' ++ ['\x7d'])

theorem document_sevens (depth : Nat) {n : Nat} (some : 0 < n) :
    document (depth + 1) (sevens n) = if digitLimit < n then .error (.numeralTooLong n)
      else .ok (.mapping [(.text "x", .int (digitsValue (List.replicate n '7')))]) := by
  obtain ⟨n, rfl⟩ := Nat.exists_eq_succ_of_ne_zero (Nat.ne_of_gt some)
  let digits := List.replicate (n + 1) '7'
  let read : Except JsonError Value := if digitLimit < n + 1 then .error (.numeralTooLong (n + 1))
    else .ok (.int (digitsValue digits))
  have only : ∀ c ∈ digits, isAsciiDigit c = true := fun c mem => by
    rw [List.eq_of_mem_replicate mem]
    rfl
  have ends : Ends ['\x7d'] := by simp [Ends, isAsciiDigit]
  have inside (fuel : Nat) : value depth (fuel + 1) (digits ++ ['\x7d']) =
      read.map fun item => (item, ['\x7d']) := by
    have number := number_signed ends false only (List.cons_ne_nil _ _) (fun zero => by cases zero)
    refine ((value_signed depth fuel false only (List.cons_ne_nil _ _)).trans number).trans ?_
    by_cases long : digitLimit < n + 1
    · simp only [read, digits, List.length_replicate, if_pos long]
      rfl
    · simp only [read, digits, List.length_replicate, if_neg long]
      rfl
  have plain : ∀ c ∈ ['x'], 32 ≤ c.toNat ∧ c ≠ '"' ∧ c ≠ '\\' :=
    List.forall_mem_singleton.2 (by decide)
  have whole : value (depth + 1) (2 * n + 12 + 3) (sevens (n + 1)) =
      read.map fun item => (.mapping [(.text "x", item)], []) :=
    value_member plain rfl (inside (2 * n + 12))
  have enough : fuelFor (sevens (n + 1)) = 2 * n + 12 + 3 := by
    simp only [fuelFor, sevens, List.length_cons, List.length_append, List.length_replicate,
      List.length_nil]
    omega
  have start : skipSpace (sevens (n + 1)) = sevens (n + 1) := rfl
  rw [document, if_neg (by simp [sevens]), start]
  dsimp only
  rw [enough, whole]
  by_cases long : digitLimit < n + 1
  · simp only [read, if_pos long]
    rfl
  · simp only [read, if_neg long]
    rfl

end Json

namespace Command

theorem told_sevens {n : Nat} (some : 0 < n) (few : n ≤ digitLimit) :
    ProbeResult.HasObject 2 ⟨String.ofList (Json.sevens n), "", 0⟩ ∧
      ProbeResult.CanBeTold 2 ⟨String.ofList (Json.sevens n), "", 0⟩ := by
  have read := Json.document_sevens 1 some
  rw [if_neg (Nat.not_lt.2 few), ← String.toList_ofList (l := Json.sevens n)] at read
  refine ⟨⟨rfl, _, read⟩, fun bad => absurd rfl bad, fun _ container deep => ?_,
    fun _ entries same => ?_⟩
  · cases deep.symm.trans read
  · cases same.symm.trans read
    exact ⟨[], rfl, by simp [Value.entryFor?]⟩

theorem failed_sevens {n : Nat} (long : digitLimit < n) :
    ∃ result, ProbeResult.ofAnswer 2 ⟨String.ofList (Json.sevens n), "", 0⟩ = .ok result ∧
      result.success = false := by
  have read := Json.document_sevens 1 (Nat.zero_lt_of_lt long)
  rw [if_pos long, ← String.toList_ofList (l := Json.sevens n)] at read
  refine ⟨.unparsed (Failure.numeralTooLong n).message, ?_, rfl⟩
  rw [ProbeResult.ofAnswer_of_ended rfl]
  simp only [ProbeResult.ofOutput, read]

/-- The answer of a recorder decides what comes of a probe. -/
theorem probe_recorded {ref : Ref .command} {recorder : Ref .recorder} {s : Session}
    {command : Command} {told : Recorder} {reply : RunResult}
    (present : s.commands.get? ref = some command)
    (there : s.recorders.get? recorder = some told) (answer : told.answer = .ok reply)
    (depth : Nat) (limit : Int) :
    (probe depth ref (.recorder recorder) (.int limit)).outcome s =
      ProbeResult.ofAnswer depth reply := by
  let handed := settled s ref command ⟨s.workspace.tokens, command.probing.arguments⟩
  have answered := runLine_recorder (s := handed) there command.probing.commandLine (.int limit)
  rw [answer] at answered
  have limited : Command.limit (.int limit) handed = .ok (.int limit) handed := rfl
  rw [Action.outcome, probe_apply depth present, inquire_answered depth limited answered]
  cases ProbeResult.ofAnswer depth reply <;> rfl

/-- A command that has got two other formats since, and has been probed without success. -/
def probingCalls : List (BuilderCall ⟨0⟩) :=
  [.streams (.text "v:0"), .common (.option (.set .printFormat (.text "xml"))),
    .common (.option (.inputs [.text "a.mp4"])),
    .common (.option (.put (.text "-of") (.text "csv") true false)), .probe 2 .fresh (.int 5)]

/-- Answers with a failure and blank errors, with an object, and with a text that is none. -/
def replies : List RunResult :=
  [⟨"", " \n", 1⟩, ⟨String.ofList (Json.sevens 1), "", 0⟩, ⟨"7 7", "", 0⟩]

/-- A session with recorders that give the answers. -/
def answering (replies : List RunResult) : Session :=
  (do replies.forM fun reply => do
        let _ ← Recorder.enter reply none : Step Unit).after (.initial Settings.fromVariables)

/-- The exit code is named where the errors are blank, the object is a success, and what is none is
a failure. -/
theorem probe_explains_replies :
    let now := BuilderCall.afterCalls probingCalls (prober.after (answering replies))
    (∃ result t, probe 2 ⟨0⟩ (.recorder ⟨0⟩) (.int 5) now = .ok result t ∧
      result.success = false ∧ result.raw = none ∧
      result.error = "ffprobe exited with code 1") ∧
    (∃ result t, probe 2 ⟨0⟩ (.recorder ⟨1⟩) (.int 5) now = .ok result t ∧
      result.success = true ∧ result.error = "") ∧
    ∃ result t, probe 2 ⟨0⟩ (.recorder ⟨2⟩) (.int 5) now = .ok result t ∧
      result.success = false ∧ result.raw = none ∧ result.error ≠ "" := by
  intro now
  have made : (CommandMaker.configured .prober).make (answering replies) =
    .ok ⟨0⟩ (prober.after (answering replies)) := rfl
  have spared : ∀ call ∈ probingCalls, call.repeats "of" = false := by decide
  have asked (place : Nat) (reply : RunResult)
      (kept : (now.recorders.get? ⟨place⟩).map (fun told => (told.reply, told.fault)) =
        some (reply, none)) (told : ProbeResult.CanBeTold 2 reply) :
      ∃ result t, probe 2 ⟨0⟩ (.recorder ⟨place⟩) (.int 5) now = .ok result t ∧
        result.Explains 2 reply := by
    obtain ⟨command, asking, -, -, -, -, -, explains, returns⟩ :=
      probe_explains made spared 2 (.recorder ⟨place⟩) (.int 5)
    let handed : Session := { now with commands := now.commands.put ⟨0⟩ asking }
    have limited : limit (.int 5) handed = .ok (.int 5) handed := rfl
    obtain ⟨recorder, present, same⟩ := Option.map_eq_some_iff.1 kept
    obtain ⟨replied, fault⟩ := Prod.mk.inj same
    have answer : recorder.answer = .ok reply := by rw [Recorder.answer, fault, replied]
    have answered := runLine_recorder (s := handed) present asking.commandLine (.int 5)
    rw [answer] at answered
    obtain ⟨result, done⟩ := (returns _ _ _ _ limited answered).2 told
    obtain ⟨_, _, _, waited, ran, explained⟩ := explains result _ done
    cases limited.symm.trans waited
    cases answered.symm.trans ran
    exact ⟨result, _, done, explained⟩
  have object := told_sevens (n := 1) (by decide) (by decide)
  refine ⟨?_, ?_, ?_⟩
  · obtain ⟨result, t, done, explained⟩ := asked 0 ⟨"", " \n", 1⟩ (by decide +kernel)
      ⟨fun _ _ => by decide, fun ended => absurd ended (by decide),
        fun ended => absurd ended (by decide)⟩
    have failed : result.success = false := by
      rw [← Bool.not_eq_true, explained.success_iff]
      exact fun ⟨ended, _⟩ => absurd ended (by decide)
    exact ⟨result, t, done, failed, (explained.told failed).2,
      explained.blank (by decide) (by decide)⟩
  · obtain ⟨result, t, done, explained⟩ := asked 1 ⟨String.ofList (Json.sevens 1), "", 0⟩
      (by decide +kernel) object.2
    have success := explained.success_iff.2 object.1
    exact ⟨result, t, done, success, explained.silent success⟩
  · have read : Json.document 2 "7 7".toList = .error (.refused .extraData 1) :=
      except_eq_error (by decide +kernel)
    have other (answer : Except JsonError Value)
        (apart : answer ≠ .error (.refused .extraData 1)) : Json.document 2 "7 7".toList ≠ answer :=
      fun same => apart (same.symm.trans read)
    obtain ⟨result, t, done, explained⟩ := asked 2 ⟨"7 7", "", 0⟩ (by decide +kernel)
      ⟨fun bad => absurd rfl bad, fun _ container => other _ (by simp),
        fun _ entries same => absurd same (other _ (by simp))⟩
    have failed : result.success = false := by
      rw [← Bool.not_eq_true, explained.success_iff]
      exact fun ⟨_, entries, same⟩ => absurd same (other _ (by simp))
    exact ⟨result, t, done, failed, (explained.told failed).2, (explained.told failed).1⟩

/-- An integer of one digit more than the limit makes an object a failure. -/
theorem probe_overlong_fails :
    let probed (n : Nat) := (probe 2 ⟨0⟩ (.recorder ⟨0⟩) (.int 5)).outcome
      (prober.after (answering [⟨String.ofList (Json.sevens n), "", 0⟩]))
    (∃ result, probed 4300 = .ok result ∧ result.success = true) ∧
      ∃ result, probed 4301 = .ok result ∧ result.success = false := by
  have asked (n : Nat) : (probe 2 ⟨0⟩ (.recorder ⟨0⟩) (.int 5)).outcome
      (prober.after (answering [⟨String.ofList (Json.sevens n), "", 0⟩])) =
        ProbeResult.ofAnswer 2 ⟨String.ofList (Json.sevens n), "", 0⟩ :=
    probe_recorded rfl rfl rfl 2 5
  intro probed
  constructor
  · have object := told_sevens (n := 4300) (by decide) (by decide)
    obtain ⟨result, made⟩ := ProbeResult.ofAnswer_returns_iff.2 object.2
    exact ⟨result, (asked 4300).trans made,
      (ProbeResult.explains_ofAnswer made).success_iff.2 object.1⟩
  · obtain ⟨result, made, failed⟩ := failed_sevens (n := 4301) (by decide)
    exact ⟨result, (asked 4301).trans made, failed⟩

end Command

end MediaCommand
