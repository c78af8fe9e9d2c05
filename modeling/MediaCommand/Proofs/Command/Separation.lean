import MediaCommand.Proofs.Command.Calls
import MediaCommand.Proofs.Command.Stored
import MediaCommand.Proofs.Value.Text

/-!
# Keys do not interfere

Every builder call makes `elementary` calls on its command's list: puts, removals and replacements,
each on one key. `stored_of_calls` is about any run of builder calls, the three elementary ones
among them: what is stored under a key is what the elementary calls on that key leave on their own.
A key that is only put as a unique one is a cell of a map in order of arrival, and the values of a
key that is only put again and again stand on the command line in the order of the calls.
-/

namespace MediaCommand

open MediaCommand.Action
open MediaCommand.ArgumentList (Desk ListCall Uniform)

/-! ## Builder calls as elementary ones -/

namespace ArgumentList.ListCall

/-- Writes a value under a key that occurs once. -/
def once (key : String) (value : Value) : ListCall := .put (.text key) value true false

/-- Adds a value under a key that may occur again. -/
def again (key : String) (value : Value) : ListCall := .put (.text key) value false false

theorem run_one {call : ListCall} {d after : Desk} (done : call.perform d = .ok () after) :
    [call].forM perform d = .ok () after :=
  bind_eq_ok.2 ⟨(), after, done, rfl⟩

/-- Calls in turn do the same on desks that match. -/
theorem run_matches {calls : List ListCall} {d e after : Desk} (same : d.Matches e)
    (done : calls.forM perform d = .ok () after) :
    ∃ rest, calls.forM perform e = .ok () rest ∧ after.Matches rest := by
  induction calls generalizing d e with
  | nil =>
    cases done
    exact ⟨e, rfl, same⟩
  | cons call others ih =>
    obtain ⟨_, mid, first, done⟩ := bind_eq_ok.1 done
    obtain ⟨next, again, same⟩ := (uniform_perform call).alike.ok same first
    obtain ⟨rest, run, left⟩ := ih same done
    exact ⟨rest, bind_eq_ok.2 ⟨_, next, again, run⟩, left⟩

end ArgumentList.ListCall

namespace OptionCall

open ArgumentList.ListCall (once again)

/-- The calls on the argument list that a builder call makes, each on one key. -/
def elementary (tokens : Tokens) : OptionCall → List ListCall
  | .put key value unique quoted => [.put key value unique quoted]
  | .remove key => [.remove key]
  | .replace key value => [.replace key value]
  | .flag option => [once option.key .null]
  | .set option value => [once option.key value]
  | .overwrite value =>
    if value.isTruthy then [.remove (.text "n"), once "y" .null]
    else [.remove (.text "y"), once "n" .null]
  | .features flags =>
    [once "cpuflags" (.text ("+".intercalate ((flags.map tokens.spell).filterMap id)))]
  | .inputs paths => (paths.filter Value.isTruthy).map (again "i")
  | .codec name streamType => match streamType with
    | .null => [once "c" name]
    | streamType => [once ("c:" ++ streamType.spelling) name]
  | .metadata key value =>
    [again "metadata" (.text (key.spelling ++ "=" ++ (tokens.spell value).getD "None"))]
  | .map spec => [again "map" spec]
  | .search start stop => [once "ss" start, once "to" stop]
  | .searchFor start length => [once "ss" start, once "t" length]
  | .loop => [once "loop" (.int 1)]
  | .size width height =>
    if width.isMemberOf .videoSize then [once "s" width]
    else [once "s" (.text (width.spelling ++ "x" ++ height.spelling))]
  | .output path => [once outputKey path]

open ArgumentList.ListCall (run_one run_matches)

variable {d e after : Desk}

/-- A call that first writes a text from its values and then puts it. -/
theorem run_text {α : Type} {look : Action Tokens α} (looks : Tokens.LooksUp look)
    {call : ListCall} {rest : Tokens} {a : α} (looked : look d.tokens = .ok a rest)
    (done : call.perform ⟨rest, d.list⟩ = .ok () after) :
    ∃ e, [call].forM ListCall.perform d = .ok () e ∧ after.Matches e := by
  have same : Desk.Matches ⟨rest, d.list⟩ d := ⟨rfl, (looks.agrees looked).symm⟩
  exact run_matches same (run_one done)

theorem run_inputs {paths : List Value} (done : ArgumentList.addInputs paths d = .ok () after) :
    ((paths.filter Value.isTruthy).map (again "i")).forM ListCall.perform d = .ok () after := by
  induction paths generalizing d with
  | nil => exact done
  | cons path rest ih =>
    by_cases present : path.isTruthy = true
    · rw [ArgumentList.addInputs, if_pos present] at done
      obtain ⟨_, mid, first, done⟩ := bind_eq_ok.1 done
      rw [List.filter_cons_of_pos present]
      exact bind_eq_ok.2 ⟨_, mid, first, ih done⟩
    · rw [ArgumentList.addInputs, if_neg present] at done
      rw [List.filter_cons_of_neg present]
      exact ih done

/-- A builder call leaves what its elementary calls leave. -/
theorem elementary_run {call : OptionCall} (done : call.edit d = .ok () after) :
    ∃ e, (call.elementary d.tokens).forM ListCall.perform d = .ok () e ∧ after.Matches e := by
  have itself (calls : List ListCall) (run : calls.forM ListCall.perform d = .ok () after) :
      ∃ e, calls.forM ListCall.perform d = .ok () e ∧ after.Matches e :=
    ⟨after, run, rfl, refl after.tokens⟩
  have two {first second : ListCall}
      (run : (do first.perform; second.perform) d = .ok () after) :
      [first, second].forM ListCall.perform d = .ok () after := by
    obtain ⟨_, mid, begun, run⟩ := bind_eq_ok.1 run
    exact bind_eq_ok.2 ⟨_, mid, begun, run_one run⟩
  cases call with
  | overwrite value =>
    by_cases wanted : value.isTruthy = true
    · simp only [edit, ArgumentList.setOverwrite, elementary, wanted, if_true] at done ⊢
      exact itself _ (two done)
    · simp only [edit, ArgumentList.setOverwrite, elementary, wanted] at done ⊢
      exact itself _ (two done)
  | features flags =>
    obtain ⟨text, _, within, done⟩ := bind_eq_ok.1 done
    obtain ⟨rest, looked, rfl⟩ := within_eq_ok.1 within
    obtain ⟨texts, mid, normal, joined⟩ := bind_eq_ok.1 looked
    cases joined
    have spelled := Tokens.normalizeAll_spelled normal
    rw [elementary, ← spelled]
    exact run_text (Tokens.looksUp_expandAll "+" flags) looked done
  | inputs paths => exact itself _ (run_inputs done)
  | codec name streamType =>
    by_cases all : streamType = .null
    · rw [all] at done ⊢
      exact itself _ (run_one done)
    · rw [edit, ArgumentList.setCodec] at done
      · rw [elementary]
        · exact itself _ (run_one (Value.spelled_bind_eq_ok.1 done).2)
        · exact all
      · exact all
  | metadata key value =>
    obtain ⟨-, done⟩ := Value.spelled_bind_eq_ok.1 done
    obtain ⟨text, _, within, done⟩ := bind_eq_ok.1 done
    obtain ⟨rest, looked, rfl⟩ := within_eq_ok.1 within
    rw [elementary, Tokens.spell_of_ok looked]
    exact run_text (Tokens.looksUp_normalize value) looked done
  | search start stop => exact itself _ (two done)
  | searchFor start length => exact itself _ (two done)
  | size width height =>
    by_cases named : width.isMemberOf .videoSize = true
    · simp only [edit, ArgumentList.setSize, elementary, named, if_true] at done ⊢
      exact itself _ (run_one done)
    · rw [edit, ArgumentList.setSize, if_neg named] at done
      obtain ⟨-, done⟩ := Value.spelled_bind_eq_ok.1 done
      obtain ⟨-, done⟩ := Value.spelled_bind_eq_ok.1 done
      rw [elementary, if_neg named]
      exact itself _ (run_one done)
  | output path =>
    by_cases present : path.isTruthy = true
    · simp only [edit, ArgumentList.setOutput, present, Bool.not_true] at done
      exact itself _ (run_one done)
    · simp only [edit, ArgumentList.setOutput, present, Bool.not_false, if_true] at done
      cases done
  | _ => exact itself _ (run_one done)

/-- The elementary calls of a run. -/
def elementaries (tokens : Tokens) (calls : List OptionCall) : List ListCall :=
  calls.flatMap (elementary tokens)

theorem elementary_congr {tokens others : Tokens} (agree : tokens.Agrees others)
    (call : OptionCall) : call.elementary tokens = call.elementary others := by
  have same : tokens.spell = others.spell := funext agree.spell
  cases call <;> simp only [elementary, same]

/-- A run of builder calls leaves what the elementary calls of the run leave. -/
theorem elementaries_run {tokens : Tokens} {calls : List OptionCall}
    (agree : tokens.Agrees d.tokens) (same : d.Matches e) (done : calls.forM edit d = .ok () after) :
    ∃ rest, (elementaries tokens calls).forM ListCall.perform e = .ok () rest ∧
      after.Matches rest := by
  induction calls generalizing d e with
  | nil =>
    cases done
    exact ⟨e, rfl, same⟩
  | cons call others ih =>
    obtain ⟨_, mid, first, done⟩ := bind_eq_ok.1 done
    obtain ⟨left, run, matching⟩ := elementary_run first
    rw [elementary_congr agree.symm] at run
    obtain ⟨next, again, further⟩ := run_matches same run
    have kept := (ListCall.agrees_run run).trans matching.tokens.symm
    obtain ⟨rest, later, last⟩ := ih (agree.trans kept) (matching.trans further) done
    exact ⟨rest, forM_append_eq_ok.2 ⟨next, again, later⟩, last⟩

end OptionCall

/-! ## What a run leaves under a key -/

namespace ArgumentList

/-- The words of a stored value behind its key. -/
def cellWords (key : String) (cell : Cell) : List String :=
  Argument.tokens ⟨commandKey key, cell.1, cell.2, 0⟩

/-- What is stored under a key is on the command line, in order. -/
theorem words_stored (list : ArgumentList) (key : String) (first : List String) :
    ((list.stored key).flatMap (cellWords key)).Sublist (list.render first) := by
  have words : (list.stored key).flatMap (cellWords key) =
      (list.arguments.filter (·.matchesKey key)).flatMap Argument.tokens := by
    rw [stored, storedIn, List.flatMap_map]
    refine List.flatMap_congr fun a mem => ?_
    have under := matchesKey_iff.1 (List.mem_filter.1 mem).2
    simp only [cellWords, Argument.tokens, under]
  rw [words]
  exact (List.filter_sublist.flatMap _).trans (List.sublist_append_right _ _)

open ListCall

/-- **Keys do not interfere.** Take any builder calls on the empty list, puts, removals and
replacements among them, that all succeed, and a key in either spelling. What is stored under the
key is what the elementary calls on it leave when they are run alone. If all puts under the key are
unique ones, it is a cell: it holds the value and the quotes written last since the last removal,
and its argument stands where it was first put since then, behind what was there before and in front
of all that came later. If all calls on the key add to it, as those for inputs, streams to take and
metadata do, then the values put are stored in the order of the calls, and the command line has
them in that order. -/
theorem stored_of_calls {tokens : Tokens} {calls : List OptionCall} {after : Desk}
    (done : calls.forM OptionCall.edit ⟨tokens, .empty⟩ = .ok () after) (key : String) :
    let elementaries := OptionCall.elementaries tokens calls
    (∃ alone, (elementaries.filter (concerns key)).forM perform ⟨tokens, .empty⟩ = .ok () alone ∧
      after.list.stored key = alone.list.stored key) ∧
    ((∀ call ∈ elementaries, call.concerns key = true → call.keepsUnique = true) →
      after.list.stored key = (cellAfter tokens key elementaries).toList ∧
      ∀ early name value quoted late,
        elementaries = early ++ .put (.text name) value true quoted :: late →
        commandKey name = commandKey key → cellAfter tokens key early = none →
        (∀ call ∈ late, call.concerns key = true → call.isRemoval = false) →
        ∃ start, early.forM perform ⟨tokens, .empty⟩ = .ok () start ∧
          StandsSince start.list after.list key) ∧
    ((∀ call ∈ elementaries, call.concerns key = true → call.appends = true) →
      after.list.stored key = valuesPut tokens key elementaries ∧
      ∀ first, ((valuesPut tokens key elementaries).flatMap (cellWords key)).Sublist
        (after.list.render first)) := by
  intro elementaries
  obtain ⟨rest, run, same⟩ := OptionCall.elementaries_run (refl tokens) ⟨rfl, refl tokens⟩ done
  have formed : (⟨tokens, .empty⟩ : Desk).list.WellFormed := .empty
  have stored := stored_run formed run key
  rw [same.list]
  refine ⟨?_, fun unique => ⟨?_, ?_⟩, fun appends => ?_⟩
  · exact stored_alone formed formed (refl tokens) rfl run
  · rw [stored, cellAfter]
    refine foldl_onStored_unique (fun call mem => ?_) tokens none
    obtain ⟨mem, concerned⟩ := List.mem_filter.1 mem
    exact unique call mem concerned
  · intro early name value quoted late split spelled vacant quiet
    have begins (call : ListCall) (mem : call ∈ early.filter (concerns key)) :
        call.keepsUnique = true := by
      obtain ⟨mem, concerned⟩ := List.mem_filter.1 mem
      exact unique call (split ▸ List.mem_append_left _ mem) concerned
    have absent := foldl_onStored_unique begins tokens none
    rw [← cellAfter, vacant] at absent
    rw [show OptionCall.elementaries tokens calls = _ from split] at run
    exact standsSince_of_run formed spelled run absent quiet
  · have put : rest.list.stored key = valuesPut tokens key elementaries := by
      rw [stored]
      refine (foldl_onStored_appends (fun call mem => ?_) tokens []).trans (List.nil_append _)
      obtain ⟨mem, concerned⟩ := List.mem_filter.1 mem
      exact appends call mem concerned
    refine ⟨put, fun first => ?_⟩
    rw [← put]
    exact words_stored rest.list key first

/-- Calls in which the quality is set, removed, put with its dash and replaced, between inputs. -/
def mixedRun : List OptionCall :=
  [.set .quality (.int 20), .inputs [.text "a.mp4", .null, .text "b.mp4"], .remove (.text "crf"),
    .put (.text "-crf") (.int 23) true true, .metadata (.text "title") (.text "x"),
    .replace (.text "crf") (.int 25), .inputs [.text "a.mp4"]]

theorem stored_of_mixedRun :
    let list := ((mixedRun.forM OptionCall.edit).after ⟨.initial, .empty⟩).list
    list.stored "crf" = [(some "25", true)] ∧
      (∃ start : Desk, start.list.nextIndex = 3 ∧ StandsSince start.list list "crf") ∧
      list.stored "-i" = [(some "a.mp4", false), (some "b.mp4", false), (some "a.mp4", false)] ∧
      ["-i", "a.mp4", "-i", "b.mp4", "-i", "a.mp4"].Sublist (list.render ["ffmpeg"]) := by
  intro list
  have done := @eq_ok_after _ (mixedRun.forM OptionCall.edit) ⟨.initial, .empty⟩ (by decide +kernel)
  obtain ⟨-, quality, -⟩ := stored_of_calls done "crf"
  obtain ⟨-, -, inputs⟩ := stored_of_calls done "-i"
  obtain ⟨cell, stands⟩ := quality (by decide +kernel)
  obtain ⟨values, words⟩ := inputs (by decide +kernel)
  refine ⟨cell, ?_, values, words ["ffmpeg"]⟩
  let early := [once "crf" (.int 20), again "i" (.text "a.mp4"), again "i" (.text "b.mp4"),
    .remove (.text "crf")]
  obtain ⟨start, begun, place⟩ :=
    stands early "-crf" (.int 23) true _ rfl (by decide) (by decide +kernel) (by decide +kernel)
  have counted : ((early.forM perform).after ⟨.initial, .empty⟩).list.nextIndex = 3 := by
    decide +kernel
  rw [after_of_ok begun] at counted
  exact ⟨start, counted, place⟩

end ArgumentList

end MediaCommand
