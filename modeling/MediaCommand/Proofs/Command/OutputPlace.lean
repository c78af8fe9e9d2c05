import MediaCommand.Proofs.Command.Calls
import MediaCommand.Settings.Variables

/-!
# Where the output path stands

The output is an argument under a unique key, so a path that is set again stays where the first one
was put. `closesWith_assign_iff` says for a well-formed list when the path comes last, and
`runTo_closes_iff` says it of every command that calls can reach and of the line that is handed
over to run: exactly when no argument with words was added after the output argument in use.
-/

namespace MediaCommand

namespace ArgumentList

/-- The words of the arguments in front of the output. -/
def wordsInFront (list : ArgumentList) : List String :=
  (list.arguments.takeWhile fun a => decide (a.key ≠ outputKey)).flatMap Argument.tokens

/-- Whatever the first words, a path comes last, right behind the arguments in front of the
output. -/
def ClosesWith (list : ArgumentList) (path : String) : Prop :=
  ∀ first, list.render first = first ++ list.wordsInFront ++ [path]

/-- Every argument added after the output argument in use is without words. -/
def QuietSinceOutput (list : ArgumentList) : Prop :=
  ∀ out, list.find? outputKey = some out →
    ∀ a ∈ list.arguments, out.index < a.index → a.tokens = []

theorem matchesKey_output (a : Argument) :
    a.matchesKey outputKey = decide (a.key = outputKey) := rfl

/-- An output argument between others closes the words when nothing behind it has any. -/
theorem closesWith_iff {list : ArgumentList} {front back : List Argument} {path : String}
    {index : Int} (split : list.arguments = front ++ ⟨outputKey, some path, false, index⟩ :: back)
    (first : ∀ a ∈ front, a.key ≠ outputKey) :
    list.ClosesWith path ↔ ∀ a ∈ back, a.tokens = [] := by
  have inFront : list.wordsInFront = front.flatMap Argument.tokens := by
    rw [wordsInFront, split, List.takeWhile_append_of_pos (by simpa using first)]
    simp
  have words (start : List String) : list.render start =
      start ++ front.flatMap Argument.tokens ++ [path] ++ back.flatMap Argument.tokens := by
    simp [render, split, Argument.tokens, outputKey]
  simp only [ClosesWith, words, inFront, List.append_right_eq_self, List.flatMap_eq_nil_iff,
    forall_const]

/-- After a path has been set, it comes last exactly when no argument with words was added after
the output argument that holds it. -/
theorem closesWith_assign_iff {list : ArgumentList} (formed : list.WellFormed) (path : String) :
    (list.assign outputKey (some path) false).ClosesWith path ↔ list.QuietSinceOutput := by
  cases found : list.find? outputKey with
  | none =>
    have first : ∀ a ∈ list.arguments, a.key ≠ outputKey := by
      simpa [find?, matchesKey_output] using found
    rw [closesWith_iff (formed.assign_absent found (some path) false) first]
    simp [QuietSinceOutput, found]
  | some out =>
    obtain ⟨here, front, back, split, first⟩ := List.find?_eq_some_iff_append.1 found
    have key : out.key = outputKey := by simpa [matchesKey_output] using here
    have frontKeys : ∀ a ∈ front, a.key ≠ outputKey := by
      simpa [matchesKey_output] using first
    have assigned := formed.assign_present split (by simpa using first) here (some path) false
    rw [key] at assigned
    rw [closesWith_iff assigned frontKeys]
    -- Indices increase along the list: what was added later stands behind the output.
    have order := formed.increasing
    rw [split, List.pairwise_append, List.pairwise_cons] at order
    obtain ⟨-, ⟨behind, -⟩, inFront⟩ := order
    constructor
    · intro quiet other same a mem later
      cases found.symm.trans same
      rw [split, List.mem_append, List.mem_cons] at mem
      rcases mem with mem | rfl | mem
      · have := inFront a mem out List.mem_cons_self
        omega
      · omega
      · exact quiet a mem
    · intro quiet a mem
      exact quiet out found a (by simp [split, mem]) (behind a mem)

end ArgumentList

namespace Command

/-- Runs a line as one that writes to a path: within the limit, checked, and reported. -/
def deliver (binary : String) (line : List String) (path : Value) (runner : Runner)
    (timeout : Value) : Step Value := do
  let timeout ← limit timeout
  let result ← runLine runner line timeout
  if result.exitCode ≠ 0 then throw (.commandFailed binary result.exitCode)
  Session.log .info "ffmpeg output written to %s" [path]
  return path

theorem read_apply {s : Session} {ref : Ref .command} {command : Command}
    (present : s.commands.get? ref = some command) : read ref s = .ok command s :=
  Action.require_of_some present

/-- A checked run hands over the line of the command as it is. -/
theorem run_checked {s : Session} {ref : Ref .command} {command : Command}
    (present : s.commands.get? ref = some command) (runner : Runner) (timeout path : Value) :
    (do let _ ← run ref runner timeout (.bool true)
        Session.log .info "ffmpeg output written to %s" [path]
        return path : Step Value) s =
      deliver command.binary command.commandLine path runner timeout s := by
  have kept := (sameObjects_limit timeout s).keeps command present
  cases limited : limit timeout s with
  | error failure t =>
    rw [deliver, Action.bind_of_error limited]
    exact Action.bind_of_error (Action.bind_of_error limited)
  | ok wait t =>
    rw [Action.after_of_ok limited] at kept
    have there : read ref t = .ok command t := read_apply kept
    rw [deliver, Action.bind_of_ok limited]
    simp only [run, bind, EStateM.bind, limited, there]
    cases runLine runner command.commandLine wait t with
    | error failure u => rfl
    | ok result u =>
      by_cases zero : result.exitCode = 0
      · simp only [zero, Value.isTruthy, ne_eq, not_true_eq_false, decide_false, Bool.and_false,
          Bool.false_eq_true, if_false]
        rfl
      · simp only [zero, Value.isTruthy, ne_eq, not_false_eq_true, decide_true, Bool.and_self,
          if_true]
        rfl

/-- The command with its output set to a path. -/
def writingTo (command : Command) (path : String) : Command :=
  { command with arguments := command.arguments.assign outputKey (some path) false }

theorem edit_setOutput {s : Session} {ref : Ref .command} {command : Command}
    (present : s.commands.get? ref = some command) {path : String} (nonempty : path ≠ "") :
    Command.edit ref (ArgumentList.setOutput (.text path)) s =
      .ok () (settled s ref command ⟨s.workspace.tokens, (command.writingTo path).arguments⟩) := by
  have set : ArgumentList.setOutput (.text path) ⟨s.workspace.tokens, command.arguments⟩ =
      .ok () ⟨s.workspace.tokens, (command.writingTo path).arguments⟩ := by
    simp only [ArgumentList.setOutput, Value.isTruthy, ne_eq, nonempty, not_false_eq_true,
      decide_true, Bool.not_true, Bool.false_eq_true, if_false]
    exact ArgumentList.write_text _ _ _
  exact (edit_apply present _).trans (Action.within_of_ok set)

/-- The line that is handed over is that of the command with its output set to the path. -/
theorem runTo_apply {s : Session} {ref : Ref .command} {command : Command}
    (present : s.commands.get? ref = some command) {path : String} (nonempty : path ≠ "")
    (runner : Runner) (timeout : Value) :
    runTo ref (.text path) runner timeout s =
      deliver command.binary (command.writingTo path).commandLine (.text path) runner timeout
        (settled s ref command ⟨s.workspace.tokens, (command.writingTo path).arguments⟩) := by
  rw [runTo, Action.bind_of_ok (edit_setOutput present nonempty)]
  exact run_checked (get?_settled present _) runner timeout (.text path)

/-- A new command of the encoder has arguments in order. -/
theorem encoder_wellFormed {overwrite : Value} {ref : Ref .command} {s t : Session}
    (built : encoder overwrite s = .ok ref t) :
    ∃ command, t.commands.get? ref = some command ∧ command.arguments.WellFormed := by
  simp only [encoder, Action.bind_eq_ok] at built
  obtain ⟨settings, u, -, new, v, entered, rest⟩ := built
  have fresh : v.commands.get? new = some ⟨.ffmpeg, settings.ffmpeg, .empty⟩ := by
    simp only [enter, Action.get_bind_apply, Action.set_bind_apply, Action.pure_apply] at entered
    cases entered
    exact Store.get?_add_next _ _
  split at rest
  · obtain ⟨_, w, run, done⟩ := Action.bind_eq_ok.1 rest
    cases done
    obtain ⟨list, edited, present⟩ :=
      builds_edit (ArgumentList.edits_setOverwrite (.bool true)) v _ fresh
    rw [Action.after_of_ok run] at present
    exact ⟨_, present, edited.wellFormed .empty⟩
  · cases rest
    exact ⟨_, fresh, .empty⟩

/-- **Where a path that a command writes to stands.** Whatever calls were made since the command was
built, the line that is handed over to the runner has the path as its last word, behind exactly the
arguments in front of the output, if and only if no argument with words was added after the output
argument that was in use. -/
theorem runTo_closes_iff {overwrite : Value} {ref : Ref .command} {s start : Session}
    (built : encoder overwrite s = .ok ref start) (calls : List (CommandCall ref)) {path : String}
    (nonempty : path ≠ "") :
    ∃ command handed,
      (CommandCall.afterCalls calls start).commands.get? ref = some command ∧
      (∀ runner timeout,
        runTo ref (.text path) runner timeout (CommandCall.afterCalls calls start) =
          deliver command.binary (command.writingTo path).commandLine (.text path) runner timeout
            handed) ∧
      ((command.writingTo path).arguments.ClosesWith path ↔
        command.arguments.QuietSinceOutput) := by
  obtain ⟨first, present, formed⟩ := encoder_wellFormed built
  obtain ⟨list, edited, reached⟩ := CommandCall.builds_calls calls start first present
  refine ⟨{ first with arguments := list }, _, reached, runTo_apply reached nonempty, ?_⟩
  exact ArgumentList.closesWith_assign_iff (edited.wellFormed formed) path

/-- A command that was set to write elsewhere, has got another option since and is then run. -/
def lateSetting : List (CommandCall ⟨0⟩) :=
  [.option (.output (.text "a.mp4")), .option (.set .quality (.int 23))]

theorem runTo_closes_iff_lateSetting :
    let fresh := Session.initial Settings.fromVariables
    encoder (.bool true) fresh = .ok ⟨0⟩ ((encoder (.bool true)).after fresh) ∧
    ∃ command handed,
      (CommandCall.afterCalls lateSetting ((encoder (.bool true)).after fresh)).commands.get? ⟨0⟩ =
        some command ∧
      (∀ runner timeout,
        runTo ⟨0⟩ (.text "b.mp4") runner timeout
            (CommandCall.afterCalls lateSetting ((encoder (.bool true)).after fresh)) =
          deliver command.binary (command.writingTo "b.mp4").commandLine (.text "b.mp4") runner
            timeout handed) ∧
      ((command.writingTo "b.mp4").arguments.ClosesWith "b.mp4" ↔
        command.arguments.QuietSinceOutput) := by
  intro fresh
  have built : encoder (.bool true) fresh =
    .ok ⟨0⟩ ((encoder (.bool true)).after fresh) := rfl
  exact ⟨built, runTo_closes_iff built lateSetting (by decide)⟩

/-- The path is not the last word that the runner gets. -/
theorem runTo_lateSetting_recorded :
    (do let recorder ← Recorder.enter ⟨"", "", 0⟩ none
        let ref ← encoder (.bool true)
        edit ref (ArgumentList.setOutput (.text "a.mp4"))
        edit ref (ArgumentList.set .quality (.int 23))
        let _ ← runTo ref (.text "b.mp4") (.recorder recorder) .null
        return (← Recorder.read recorder).calls.map Prod.fst : Step (List (List String))).run'
      (.initial Settings.fromVariables) = some [["ffmpeg", "-y", "b.mp4", "-crf", "23"]] := by
  decide

end Command

end MediaCommand
