import MediaCommand.Proofs.Command.FailedCalls
import MediaCommand.Proofs.Graph.Sharing
import MediaCommand.Settings.Variables

/-!
# What failed filter calls leave

A call on a filter set does all that can fail before it touches the set: it looks its labels up and
renders its items into a graph of its own. So a call that fails has drafted a graph at most, whatever
it fails for (`GraphCall.atomic_perform`). `failed_filters_keep` says what this means for the sets
and for the commands that take filters.
-/

namespace MediaCommand

open MediaCommand.Action

namespace FilterSet

theorem atomic_change (ref : Ref .filterSet) (f : FilterSet → FilterSet) :
    Atomic (Workspace.Drafts none) (change ref f) :=
  .bind (.require _) fun _ => .modify _

theorem atomic_setSplit (ref : Ref .filterSet) (labels : List Value) :
    Atomic (Workspace.Drafts none) (setSplit ref labels) := by
  unfold setSplit
  dsimp only
  split
  · exact .bind (.throw _) fun _ =>
      .bind (Workspace.Drafts.respects_withTokens _) fun _ => atomic_change ref _
  · exact .bind (Workspace.Drafts.respects_withTokens _) fun _ => atomic_change ref _

theorem atomic_addItems (ref : Ref .filterSet) (items : List GraphItem) :
    Atomic (Workspace.Drafts none) (addItems ref items) := by
  unfold addItems
  split
  · exact atomic_change ref _
  · exact (Respects.throw _).atomic
  · exact .bind (Workspace.Drafts.respects_ofItems none _) fun _ => atomic_change ref _

/-- A set takes a new graph once that is complete. -/
theorem atomic_take {made : Work (Ref .graph)} (drafts : Respects (Workspace.Drafts none) made)
    (ref : Ref .filterSet) : Atomic (Workspace.Drafts none) (do
      let graph ← made
      addGraph ref graph
      return graph) :=
  .bind drafts fun graph => .bind_pure (atomic_change ref _) fun _ => graph

end FilterSet

namespace GraphCall

/-- A call on a set that fails has drafted a graph at most. -/
theorem atomic_perform {call : GraphCall} {ref : Ref .filterSet} (named : call.set? = some ref) :
    Atomic (Workspace.Drafts none) call.perform := by
  cases call with
  | split ref labels => exact FilterSet.atomic_setSplit ref labels
  | hold ref items => exact FilterSet.atomic_addItems ref items
  | startFrom ref labels =>
    exact .bind_pure (FilterSet.atomic_take (.respects_ofInputs _ labels) ref) _
  | start ref items =>
    exact .bind_pure (FilterSet.atomic_take (.respects_ofItems _ items) ref) _
  | _ => cases named

end GraphCall

/-- Where no graph was changed every set shows the same text. -/
theorem Workspace.Drafts.shows {w t : Workspace} (linked : w.Linked) (drafts : w.Drafts none t)
    (ref : Ref .filterSet) :
    (FilterSet.renderNow ref).outcome t = (FilterSet.renderNow ref).outcome w := by
  refine FilterSet.outcome_renderNow_congr linked (congrArg (·.get? ref) drafts.sets) ?_
  intro set present graph mem
  obtain ⟨object, there⟩ := Option.isSome_iff_exists.1 (linked ref set present graph mem)
  rw [there]
  exact drafts.others graph object there nofun

/-- **What failed filter calls leave.** Take a workspace that any calls on nodes, graphs and sets
have led to, and a split or any call that adds to a set, with any labels or items. If the call
fails, all sets are as they were, with their graphs and splits, all graphs are too, and every set
shows the text that it showed. A call that sets the filters of a command in any session leaves every
command line as it was when it fails. -/
theorem failed_filters_keep :
    (∀ w : Workspace, w.Reached → ∀ (call : GraphCall) (ref : Ref .filterSet),
      call.set? = some ref → ∀ failure t, call.perform w = .error failure t →
        t.sets = w.sets ∧
        (∀ graph object, w.graphs.get? graph = some object →
          t.graphs.get? graph = some object) ∧
        ∀ other, (FilterSet.renderNow other).outcome t = (FilterSet.renderNow other).outcome w) ∧
    ∀ (s t : Session) (ref : Ref .command) (items : List GraphItem) (failure : Failure),
      Command.setFilters ref items s = .error failure t →
        ∀ other, (t.commands.get? other).map Command.commandLine =
          (s.commands.get? other).map Command.commandLine := by
  constructor
  · intro w reached call ref named failure t failed
    have drafts := GraphCall.atomic_perform named failed
    exact ⟨drafts.sets, fun graph object there => drafts.others graph object there nofun,
      drafts.shows reached.linked⟩
  · intro s t ref items failure failed other
    rw [(Command.atomic_setFilters ref items failed).2]

/-- A set with a split and one graph. -/
def fanned : List SharedCall :=
  [.graphs (.set (.text "vf")), .graphs (.split ⟨0⟩ [.text "a", .text "b"]),
    .graphs (.hold ⟨0⟩ [.text "fade"])]

/-- An infinite label and an item behind another one that cannot be rendered. -/
theorem failed_filters_keep_fanned :
    let w := afterEach SharedCall.perform fanned .initial
    (∃ t, (GraphCall.split ⟨0⟩ [.text "c", .decimal (.infinite false)]).perform w =
        .error .decimalInvalid t ∧
      (FilterSet.renderNow ⟨0⟩).outcome t = .ok "split[a][b];fade") ∧
    (∃ t, (GraphCall.start ⟨0⟩ [.text "hflip", .other "int"]).perform w =
        .error (.noAttribute "int" "render") t ∧
      t.sets = w.sets ∧ (FilterSet.renderNow ⟨0⟩).outcome t = .ok "split[a][b];fade") ∧
    ∃ t, Command.setFilters ⟨0⟩ [.text "hflip", .other "int"]
        ((Command.encoder (.bool true)).after (.initial Settings.fromVariables)) =
          .error (.noAttribute "int" "render") t ∧
      (t.commands.get? ⟨0⟩).map Command.commandLine = some ["ffmpeg", "-y"] := by
  intro w
  have reached : w.Reached := by
    refine Workspace.Reached.initial.run ?_
    simp only [fanned, history, List.forall_mem_cons]
    exact ⟨trivial, trivial, trivial, List.forall_mem_nil _⟩
  obtain ⟨calls, filters⟩ := failed_filters_keep
  refine ⟨⟨_, rfl, ?_⟩, ⟨_, rfl, ?_⟩, _, rfl, ?_⟩
  · obtain ⟨-, -, shown⟩ := calls w reached
      (.split ⟨0⟩ [.text "c", .decimal (.infinite false)]) ⟨0⟩ rfl _ _ rfl
    exact shown ⟨0⟩
  · obtain ⟨sets, -, shown⟩ := calls w reached
      (.start ⟨0⟩ [.text "hflip", .other "int"]) ⟨0⟩ rfl _ _ rfl
    exact ⟨sets, shown ⟨0⟩⟩
  · exact filters ((Command.encoder (.bool true)).after (.initial Settings.fromVariables)) _ ⟨0⟩
      [.text "hflip", .other "int"] _ rfl ⟨0⟩

end MediaCommand
