import MediaCommand.Proofs.Execution.EventProtocol
import MediaCommand.Proofs.Progress.Fields

/-!
# Error lines that are lost

The reader of error lines stops at the first line whose progress cannot be read. That line is kept,
the lines behind it are lost, and neither it nor they are told to listeners.
`run_keepsErrors_iff` says when no line is lost and when all progress is told, in terms of the lines
that can be read (`Progress.Readable`).
-/

namespace MediaCommand

namespace Progress

variable {duration : Option String}

/-- A line that reports no progress, or progress that can be read. -/
def Readable (duration : Option String) (line : String) : Prop :=
  Executor.reportsProgress line = true → ∃ progress, ofLine line duration = .ok progress

/-- Without a duration, a line that reports progress can be read exactly when its frame, if it has
one, is not too long and its rate, if it has one, has a digit and at most one point. -/
theorem readable_none_iff (line : String) :
    Readable none line ↔ (Executor.reportsProgress line = true →
      (∀ digits, FieldPattern.frame.find? line.toList = some digits →
        digits.length ≤ digitLimit) ∧
      ∀ rate, FieldPattern.fps.find? line.toList = some rate →
        (∃ c ∈ rate, isDigit c = true) ∧ rate.count '.' ≤ 1) := by
  rw [Readable, ofLine_none, fields_isOk_iff]

theorem readsOn_iff {line : String} : readsOn duration line = true ↔ Readable duration line := by
  cases reporting : Executor.reportsProgress line <;>
    cases outcome : ofLine line duration <;>
      simp [readsOn, reported?, Readable, reporting, outcome, Except.toOption]

section Reading

variable {line : String} {rest : List String}

@[simp] theorem linesRead_nil : linesRead duration [] = [] := rfl

@[simp] theorem reports_nil : reports duration [] = [] := rfl

theorem linesRead_cons (readable : Readable duration line) :
    linesRead duration (line :: rest) = line :: linesRead duration rest := by
  simp [linesRead, readsOn_iff.2 readable]

theorem linesRead_stop (unreadable : ¬ Readable duration line) :
    linesRead duration (line :: rest) = [line] := by
  have stops : readsOn duration line = false := by
    simpa using mt readsOn_iff.1 unreadable
  simp [linesRead, stops]

/-- The lines that are read come first. -/
theorem linesRead_append (duration : Option String) (lines : List String) :
    ∃ lost, lines = linesRead duration lines ++ lost := by
  induction lines with
  | nil => exact ⟨[], rfl⟩
  | cons line rest ih =>
    by_cases readable : Readable duration line
    · obtain ⟨lost, same⟩ := ih
      refine ⟨lost, ?_⟩
      rw [linesRead_cons readable, List.cons_append, ← same]
    · exact ⟨rest, by rw [linesRead_stop readable, List.singleton_append]⟩

/-- The first line is always read. -/
theorem linesRead_ne_nil {lines : List String} (some : lines ≠ []) :
    linesRead duration lines ≠ [] := by
  obtain ⟨line, rest, rfl⟩ := List.exists_cons_of_ne_nil some
  by_cases readable : Readable duration line
  · simp [linesRead_cons readable]
  · simp [linesRead_stop readable]

/-- All lines are read exactly when those in front of the last can be. -/
theorem linesRead_eq_iff (duration : Option String) (lines : List String) :
    linesRead duration lines = lines ↔ ∀ line ∈ lines.dropLast, Readable duration line := by
  induction lines with
  | nil => simp
  | cons line rest ih =>
    cases rest with
    | nil =>
      by_cases readable : Readable duration line
      · simp [linesRead_cons readable]
      · simp [linesRead_stop readable]
    | cons next others =>
      by_cases readable : Readable duration line
      · rw [linesRead_cons readable, List.cons.injEq, ih, List.dropLast_cons_cons]
        simp [readable]
      · simp [linesRead_stop readable, readable]

theorem reports_cons_of_reporting {progress : Progress}
    (reporting : Executor.reportsProgress line = true)
    (outcome : ofLine line duration = .ok progress) :
    reports duration (line :: rest) = progress :: reports duration rest := by
  have goes := readsOn_iff.2 fun _ => ⟨progress, outcome⟩
  simp [reports, goes, reported?, reporting, outcome, Except.toOption]

theorem reports_cons_of_silent (silent : Executor.reportsProgress line = false) :
    reports duration (line :: rest) = reports duration rest := by
  have goes : readsOn duration line = true := readsOn_iff.2 (by simp [Readable, silent])
  simp [reports, goes, reported?, silent]

theorem reports_stop (unreadable : ¬ Readable duration line) :
    reports duration (line :: rest) = [] := by
  have stops : readsOn duration line = false := by
    simpa using mt readsOn_iff.1 unreadable
  simp [reports, stops]

/-- The lines that report progress are told with what they report, if all can be read. -/
theorem reports_of_readable {lines : List String}
    (readable : ∀ line ∈ lines, Readable duration line) :
    (lines.filter Executor.reportsProgress).map (ofLine · duration) =
      (reports duration lines).map .ok := by
  induction lines with
  | nil => rfl
  | cons line rest ih =>
    have behind := ih fun other mem => readable other (List.mem_cons_of_mem line mem)
    cases reporting : Executor.reportsProgress line with
    | true =>
      obtain ⟨progress, outcome⟩ := readable line List.mem_cons_self reporting
      rw [List.filter_cons_of_pos reporting, reports_cons_of_reporting reporting outcome,
        List.map_cons, List.map_cons, behind, outcome]
    | false =>
      rw [List.filter_cons_of_neg (by simp [reporting]), reports_cons_of_silent reporting, behind]

/-- All progress is told exactly when every line can be read. -/
theorem length_reports_eq_iff (duration : Option String) (lines : List String) :
    (reports duration lines).length = lines.countP Executor.reportsProgress ↔
      ∀ line ∈ lines, Readable duration line := by
  induction lines with
  | nil => simp
  | cons line rest ih =>
    rw [List.forall_mem_cons, ← ih]
    cases reporting : Executor.reportsProgress line with
    | false =>
      have silent : Readable duration line := by simp [Readable, reporting]
      rw [reports_cons_of_silent reporting, List.countP_cons_of_neg (by simp [reporting])]
      simp [silent]
    | true =>
      rw [List.countP_cons_of_pos reporting]
      by_cases readable : Readable duration line
      · obtain ⟨progress, outcome⟩ := readable reporting
        rw [reports_cons_of_reporting reporting outcome]
        simp [readable]
      · rw [reports_stop readable]
        simp [readable]

end Reading

end Progress

/-! ## Joined lines -/

theorem intercalate_append {first second : List String} (some : first ≠ []) (more : second ≠ []) :
    "\n".intercalate (first ++ second) =
      "\n".intercalate first ++ "\n" ++ "\n".intercalate second := by
  induction first with
  | nil => exact absurd rfl some
  | cons text rest ih =>
    cases rest with
    | nil =>
      obtain ⟨next, others, rfl⟩ := List.exists_cons_of_ne_nil more
      rw [List.singleton_append, String.intercalate_cons_cons, String.intercalate_singleton]
    | cons next others =>
      have behind := ih (List.cons_ne_nil next others)
      rw [List.cons_append] at behind
      rw [List.cons_append, List.cons_append, String.intercalate_cons_cons, behind,
        String.intercalate_cons_cons]
      simp only [String.append_assoc]

/-- A joined text is the same without some of its lines only if there are none of them: each line
adds the feed in front of it. -/
theorem intercalate_eq_iff {kept : List String} (some : kept ≠ []) (lost last : List String) :
    "\n".intercalate (kept ++ last) = "\n".intercalate (kept ++ lost ++ last) ↔ lost = [] := by
  constructor
  · intro same
    cases lost with
    | nil => rfl
    | cons text rest =>
      have more : text :: rest ≠ [] := List.cons_ne_nil text rest
      have feed : "\n".length = 1 := rfl
      have lengths := congrArg String.length same
      cases last with
      | nil =>
        rw [List.append_nil, List.append_nil, intercalate_append some more, String.length_append,
          String.length_append, feed] at lengths
        omega
      | cons final others =>
        have ends : final :: others ≠ [] := List.cons_ne_nil final others
        rw [List.append_assoc, intercalate_append some ends,
          intercalate_append some (List.append_ne_nil_of_right_ne_nil _ ends),
          intercalate_append more ends] at lengths
        simp only [String.length_append, feed] at lengths
        omega
  · rintro rfl
    rw [List.append_nil]

/-- The error text of a run in which no line is lost. -/
def ChildPlan.errorText (plan : ChildPlan) (timeout : Value) : String :=
  "\n".intercalate (plan.stderr.map dropLineFeeds ++
    if plan.expires timeout then [Executor.timeoutLine] else [])

/-- A run keeps its error text exactly when its error lines are all read. -/
theorem ChildPlan.stderr_eq_errorText_iff (plan : ChildPlan) (duration : Option String)
    (timeout : Value) :
    (plan.result duration timeout).stderr = plan.errorText timeout ↔
      ∀ line ∈ plan.stderr.dropLast, Progress.Readable duration line := by
  have joined : (plan.result duration timeout).stderr =
      "\n".intercalate ((Progress.linesRead duration plan.stderr).map dropLineFeeds ++
        if plan.expires timeout then [Executor.timeoutLine] else []) := by
    cases expires : plan.expires timeout <;> simp [result, expires]
  rw [joined, errorText, ← Progress.linesRead_eq_iff]
  by_cases none : plan.stderr = []
  · simp [none]
  · obtain ⟨lost, split⟩ := Progress.linesRead_append duration plan.stderr
    have some : (Progress.linesRead duration plan.stderr).map dropLineFeeds ≠ [] := by
      simpa using Progress.linesRead_ne_nil none
    generalize Progress.linesRead duration plan.stderr = kept at *
    rw [split, List.map_append, intercalate_eq_iff some, List.map_eq_nil_iff]
    simp

namespace Executor

variable {ref : Ref .executor} {executor : Executor} {world : Runtime}

/-- **When no error line is lost.** Whatever calls have been made, a run that starts a program tells
that it started, then progress, then how it ended. Its result has the whole error text if and only
if every error line but the last can be read, and it tells the progress of every line that reports
some if and only if every error line can be read. -/
theorem run_keepsErrors_iff (reached : world.Reached)
    (present : world.executors.get? ref = some executor) (active : executor.cancelled = false)
    {plan : ChildPlan} (next : world.plans.head? = some plan) (sound : plan.fault = none)
    {command : List String} (nonempty : command ≠ []) (timeout : Value) :
    ∃ result after last, run ref command timeout world = .ok result after ∧
      after.events = world.events ++ announced executor.listeners (.started ::
        ((Progress.reports executor.totalDuration plan.stderr).map .progress ++ [last])) ∧
      last.IsTerminal ∧
      (result.stderr = plan.errorText timeout ↔
        ∀ line ∈ plan.stderr.dropLast, Progress.Readable executor.totalDuration line) ∧
      ((Progress.reports executor.totalDuration plan.stderr).length =
          plan.stderr.countP reportsProgress ↔
        ∀ line ∈ plan.stderr, Progress.Readable executor.totalDuration line) := by
  obtain ⟨plans, planned⟩ := List.head?_eq_some_iff.1 next
  obtain ⟨after, returned, ran⟩ :=
    run_planned reached.linked present active planned sound nonempty timeout
  refine ⟨_, after, _, returned, ran.events, isTerminal_closing _ _,
    plan.stderr_eq_errorText_iff executor.totalDuration timeout,
    Progress.length_reports_eq_iff executor.totalDuration plan.stderr⟩

/-- A program that fails after it has reported progress without a rate. -/
def failing : List ExecutorCall :=
  [.prepare ⟨[], ["Input #0\n", "frame=1\n", "No space left\n"], 1, false, false, none⟩,
    .enter none, .register ⟨0⟩ (Listener.cancelsOn none)]

/-- None of its error lines is lost. -/
theorem run_keepsErrors_failing :
    ∃ result after, run ⟨0⟩ ["ffmpeg"] .null (ExecutorCall.afterCalls failing .initial) =
        .ok result after ∧
      result.stderr = "Input #0\nframe=1\nNo space left" := by
  have present : (ExecutorCall.afterCalls failing .initial).executors.get? ⟨0⟩ =
    some ⟨none, [⟨0, Listener.cancelsOn none⟩], false, none⟩ := rfl
  have next : (ExecutorCall.afterCalls failing .initial).plans.head? =
    some ⟨[], ["Input #0\n", "frame=1\n", "No space left\n"], 1, false, false, none⟩ := rfl
  obtain ⟨result, after, last, returned, -, -, kept, -⟩ :=
    run_keepsErrors_iff ⟨failing, rfl⟩ present rfl next rfl (List.cons_ne_nil "ffmpeg" []) .null
  have short : ∀ line ∈ ["Input #0\n", "frame=1\n"],
      ((FieldPattern.frame.find? line.toList).getD []).length ≤ digitLimit := by
    decide +kernel
  have rateless : ∀ line ∈ ["Input #0\n", "frame=1\n"],
      FieldPattern.fps.find? line.toList = none := by
    decide +kernel
  refine ⟨result, after, returned, (kept.2 fun line mem => ?_).trans (by decide +kernel)⟩
  rw [Progress.readable_none_iff, rateless line mem]
  refine fun _ => ⟨fun digits found => ?_, fun rate found => ?_⟩
  · simpa [found] using short line mem
  · cases found

/-- A rate with two points ends the reading: the reason of the failure is lost, and the progress is
not told. -/
theorem run_losesErrors :
    (do plan ⟨[], ["frame=1 fps=1.2.3\n", "No space left on device\n"], 1, false, false, none⟩
        let ref ← enter none
        listen ref none
        let result ← run ref ["ffmpeg"] .null
        return (result.stderr, (← get).events.map (·.2.name)) :
          Running (String × List String)).run' .initial =
      some ("frame=1 fps=1.2.3", ["started", "failed"]) := by
  decide +kernel

end Executor

end MediaCommand
