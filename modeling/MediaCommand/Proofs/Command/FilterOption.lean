import MediaCommand.Proofs.Command.FilterRoutes
import MediaCommand.Proofs.Command.Indices
import MediaCommand.Proofs.Command.OutputPlace
import Mathlib.Data.List.TakeWhile

/-!
# The argument of a filter option

A filter set keeps the option that it was defined for, whatever is done with it since
(`FilterSet.Defined.option`), and a command that takes the set has one argument under this option.
Dashes in front of an option are dropped, so that nothing is left of an option of dashes alone. The
key of its argument is then that of the output (`Command.takesFilters_iff`).
-/

namespace MediaCommand

open MediaCommand.Action

/-! ## Names of options -/

namespace FilterSet

theorem toList_option_fresh (option : String) :
    (fresh option).option.toList = option.toList.dropWhile (· == '-') :=
  String.toList_ofList

/-- The name of an option has no dash in front, so its key has one. -/
theorem commandKey_fresh (option : String) :
    commandKey (fresh option).option = "-" ++ (fresh option).option := by
  rw [commandKey, if_neg]
  rw [toList_option_fresh]
  intro dashed
  have front := List.head?_dropWhile_not (· == '-') option.toList
  rw [dashed] at front
  cases front

/-- An option has a name unless it is made of dashes. -/
theorem fresh_named_iff (option : String) :
    (fresh option).option ≠ "" ↔ ∃ c ∈ option.toList, c ≠ '-' := by
  rw [ne_eq, ← String.toList_inj, toList_option_fresh, String.toList_empty,
    List.dropWhile_eq_nil_iff]
  simp

end FilterSet

/-! ## Sets keep their options -/

/-- The option of a set. -/
def Workspace.option? (w : Workspace) (ref : Ref .filterSet) : Option String :=
  (w.sets.get? ref).map FilterSet.option

/-- Every set has the option that it had. -/
def Workspace.KeepsOptions (before after : Workspace) : Prop :=
  ∀ ref option, before.option? ref = some option → after.option? ref = some option

instance : IsPreorder Workspace Workspace.KeepsOptions where
  refl _ _ _ same := same
  trans _ _ _ first second ref option same := second ref option (first ref option same)

namespace Workspace.KeepsOptions

variable {w after : Workspace}

theorem of_sets (same : after.sets = w.sets) : w.KeepsOptions after := by
  intro ref option known
  rwa [option?, same]

theorem of_apart {graph : Option (Ref .graph)} (apart : w.Apart graph none after) :
    w.KeepsOptions after := by
  intro ref option known
  obtain ⟨set, present, rfl⟩ := Option.map_eq_some_iff.1 known
  rw [option?, apart.sets ref set present nofun]
  rfl

theorem respects_change (ref : Ref .filterSet) {f : FilterSet → FilterSet}
    (same : ∀ set, (f set).option = set.option) :
    Respects Workspace.KeepsOptions (FilterSet.change ref f) := by
  intro w other option known
  obtain ⟨set, present, rfl⟩ := Option.map_eq_some_iff.1 known
  rw [FilterSet.after_change, option?]
  by_cases here : other = ref
  · subst here
    rw [← Store.modify_of_some present, Store.get?_put_self present, Option.map_some, same]
  · rw [Store.get?_modify_other _ here, present, Option.map_some]

theorem respects_addGraph (ref : Ref .filterSet) (graph : Ref .graph) :
    Respects Workspace.KeepsOptions (FilterSet.addGraph ref graph) :=
  respects_change ref fun _ => rfl

theorem respects_drafts {α : Type} {made : Work α}
    (drafts : Respects (Workspace.Drafts none) made) : Respects Workspace.KeepsOptions made :=
  drafts.mono fun _ _ drafts => of_sets drafts.sets

theorem respects_start {made : Work (Ref .graph)}
    (drafts : Respects (Workspace.Drafts none) made) (ref : Ref .filterSet) :
    Respects Workspace.KeepsOptions
      (do let graph ← made; FilterSet.addGraph ref graph; return graph) :=
  .bind (respects_drafts drafts) fun graph => .bind (respects_addGraph ref graph) fun _ => .pure _

theorem respects_addItems (ref : Ref .filterSet) (items : List GraphItem) :
    Respects Workspace.KeepsOptions (FilterSet.addItems ref items) := by
  unfold FilterSet.addItems
  split
  · exact respects_addGraph ref _
  · exact .throw _
  · exact .bind (respects_drafts (Drafts.respects_ofItems none _)) fun graph =>
      respects_addGraph ref graph

theorem respects_setSplit (ref : Ref .filterSet) (labels : List Value) :
    Respects Workspace.KeepsOptions (FilterSet.setSplit ref labels) := by
  have wrapped : Respects Workspace.KeepsOptions
      (Workspace.withTokens (Split.toLabels ⟨"", ""⟩ labels)) :=
    respects_drafts (Drafts.respects_withTokens _)
  have written (split : Split) :
      Respects Workspace.KeepsOptions (FilterSet.change ref ({ · with split := some split })) :=
    respects_change ref fun _ => rfl
  unfold FilterSet.setSplit
  dsimp only
  split
  · exact .bind (.throw _) fun _ => .bind wrapped written
  · exact .bind wrapped written

theorem respects_filterSetOf (items : List GraphItem) :
    Respects Workspace.KeepsOptions (Command.filterSetOf items) := by
  unfold Command.filterSetOf
  split
  · exact .pure _
  · have entered : Respects (Workspace.Apart none none)
        (FilterSet.enter (.fresh FilterSet.simpleOption)) := Apart.respects_enter _
    refine .bind (entered.mono fun _ _ => of_apart) fun ref => ?_
    exact .bind (respects_start (Drafts.respects_ofItems _ _) ref) fun _ => .pure _

end Workspace.KeepsOptions

/-- Calls on nodes, graphs and sets keep the options of all sets. -/
theorem SharedCall.keepsOptions_perform (call : SharedCall) :
    Respects Workspace.KeepsOptions call.perform := by
  by_cases named : call.set? = none
  · intro w
    have apart := call.apart_perform w
    rw [named] at apart
    exact .of_apart apart
  · cases call with
    | graphs call =>
      cases call with
      | split ref labels => exact Workspace.KeepsOptions.respects_setSplit ref labels
      | hold ref items => exact Workspace.KeepsOptions.respects_addItems ref items
      | startFrom ref labels =>
        exact .bind (Workspace.KeepsOptions.respects_start
          (Workspace.Drafts.respects_ofInputs _ labels) ref) fun _ => .pure _
      | start ref items =>
        exact .bind (Workspace.KeepsOptions.respects_start
          (Workspace.Drafts.respects_ofItems _ items) ref) fun _ => .pure _
      | _ => exact absurd rfl named
    | _ => exact absurd rfl named

/-- Every set of the session has the option that it had. -/
def Session.KeepsOptions (before after : Session) : Prop :=
  before.workspace.KeepsOptions after.workspace

instance : IsPreorder Session Session.KeepsOptions where
  refl s := refl_of Workspace.KeepsOptions s.workspace
  trans _ _ _ first second := trans_of Workspace.KeepsOptions first second

namespace CommandCall

variable {ref : Ref .command}

/-- Whether a call is one on the command itself. -/
def isOwn : CommandCall ref → Bool
  | .elsewhere .. => false
  | _ => true

/-- Calls on a command keep the options of all sets. -/
theorem keepsOptions_perform {call : CommandCall ref} (own : call.isOwn = true) :
    Respects Session.KeepsOptions call.perform := by
  have work {α : Type} {action : Work α} (inside : Respects Workspace.KeepsOptions action) :
      Respects Session.KeepsOptions (Session.work action) :=
    .within_of inside fun _ _ kept => kept
  have edit {α : Type} (edit : ArgumentList.Edit α) :
      Respects Session.KeepsOptions (Command.edit ref edit) :=
    Command.respects_edit (fun _ _ _ => .of_sets rfl) edit
  have outside {α : Type} {action : Step α} (same : Respects Session.SameObjects action) :
      Respects Session.KeepsOptions action :=
    same.mono fun _ _ same => .of_sets (congrArg Workspace.sets same.1)
  cases call with
  | option call => exact edit call.edit
  | filters items =>
    refine .bind (work (.respects_filterSetOf items)) fun filters =>
      .bind (work (respects_renderNow filters)) fun text => ?_
    split
    · exact .bind (work (.require _)) fun _ => edit _
    · exact .pure _
  | writeTo path runner timeout =>
    refine .bind ?_ fun _ => .pure _
    exact .bind (edit _) fun _ => .bind (outside (Command.sameObjects_run _ _ _ _)) fun _ =>
      .bind (outside (Command.sameObjects_running _)) fun _ => .pure _
  | run runner timeout check =>
    exact .bind (outside (Command.sameObjects_run _ _ _ _)) fun _ => .pure _
  | elsewhere action apart => cases own

end CommandCall

/-- Filter sets as they were. -/
def Session.SameSets (before after : Session) : Prop :=
  after.workspace.sets = before.workspace.sets

/-- A session in which a set has been defined for an option, with calls since on nodes, graphs and
sets, this one among them, and on commands. What goes on elsewhere leaves the sets alone. -/
inductive FilterSet.Defined (option : String) (filters : Ref .filterSet) : Session → Prop where
  | define {s t : Session}
      (made : Session.work (FilterSet.define (.text option)) s = .ok filters t) :
      Defined option filters t
  | shared {s : Session} (call : SharedCall) (before : Defined option filters s) :
      Defined option filters ((Session.work call.perform).after s)
  | command {s : Session} {ref : Ref .command} (call : CommandCall ref) (own : call.isOwn = true)
      (before : Defined option filters s) : Defined option filters (call.perform.after s)
  | elsewhere {s : Session} (action : Step Unit) (apart : Respects Session.SameSets action)
      (before : Defined option filters s) : Defined option filters (action.after s)

theorem FilterSet.define_text {option : String} (nonempty : option ≠ "") (w : Workspace) :
    define (.text option) w =
      .ok w.sets.next { w with sets := w.sets.add (fresh option) } := by
  rw [define, if_pos (by simpa [Value.isTruthy] using nonempty)]
  rfl

/-- A set that was defined for an option has its name ever after. -/
theorem FilterSet.Defined.option {option : String} {filters : Ref .filterSet} {s : Session}
    (defined : Defined option filters s) :
    s.workspace.option? filters = some (fresh option).option := by
  induction defined with
  | define made =>
    obtain ⟨w, done, rfl⟩ := within_eq_ok.1 made
    by_cases empty : option = ""
    · subst empty
      cases done
    · rw [define_text empty] at done
      cases done
      exact congrArg (Option.map FilterSet.option) (Store.get?_add_next _ _)
  | shared call before ih =>
    have kept := call.keepsOptions_perform
    rw [Session.work, after_within]
    exact kept _ _ _ ih
  | command call own before ih => exact CommandCall.keepsOptions_perform own _ _ _ ih
  | elsewhere action apart before ih => exact Workspace.KeepsOptions.of_sets (apart _) _ _ ih

/-! ## Filters in a command -/

namespace Command

/-- The arguments that are written as the output. -/
def outputs (command : Command) : List Argument :=
  command.arguments.arguments.filter fun a => decide (a.key = outputKey)

/-- How filters should enter a command: one argument of their option, with their text right behind
it, in the place of the first that the option had or at the end. All other arguments are as they
were, and so is the output. -/
structure TakesFilters (before after : Command) (name text : String) : Prop where
  named : name ≠ ""
  placed : ∃ front old back index,
    before.arguments.arguments = front ++ old ++ back ∧
    after = { before with arguments := after.arguments } ∧
    after.arguments.arguments = front ++ ⟨"-" ++ name, some text, false, index⟩ :: back ∧
    (∀ a ∈ front, a.key ≠ "-" ++ name) ∧
    ((∃ a, old = [a] ∧ a.key = "-" ++ name) ∨ old = [] ∧ back = []) ∧
    after.commandLine = before.binary :: front.flatMap Argument.tokens ++
      ["-" ++ name, text] ++ back.flatMap Argument.tokens
  output : after.outputs = before.outputs

variable {command : Command}

theorem dashed_ne_outputKey {name : String} (named : name ≠ "") : "-" ++ name ≠ outputKey := by
  intro same
  have inner := congrArg String.toList same
  rw [String.toList_append] at inner
  exact named (String.toList_inj.1 (List.cons_injective inner))

/-- What is written under a key with a name is one argument there. -/
theorem takesFilters_filtered (formed : command.arguments.WellFormed) {name text : String}
    (named : name ≠ "") (key : commandKey name = "-" ++ name) (nonempty : text ≠ "") :
    command.TakesFilters (command.filtered name text) name text := by
  obtain ⟨front, old, back, index, before, after, first, replaced⟩ :=
    formed.assign_split name (some text) false
  have other := dashed_ne_outputKey named
  have written : (command.filtered name text).arguments =
      command.arguments.assign name (some text) false := by
    rw [filtered, if_neg nonempty]
  rw [← written] at after
  rw [key] at after first replaced
  refine ⟨named, ⟨front, old, back, index, before, ?_, after, first, replaced, ?_⟩, ?_⟩
  · rw [filtered, if_neg nonempty]
  · rw [commandLine, ArgumentList.render, after, List.flatMap_append, List.flatMap_cons,
      Argument.tokens, if_neg other]
    simp [filtered, nonempty]
  · rw [outputs, outputs, after, before]
    have silent : old.filter (fun a => decide (a.key = outputKey)) = [] := by
      rcases replaced with ⟨a, rfl, under⟩ | ⟨rfl, -⟩
      · simp [under, other]
      · rfl
    simp [silent, other]

/-- Text under an option without a name is written as the output. -/
theorem filtered_unnamed {text : String} (nonempty : text ≠ "") :
    command.filtered "" text = command.writingTo text := by
  rw [filtered, if_neg nonempty, writingTo]
  rfl

/-- **A filter option in a command.** A set was defined for an option, a command was built, and
anything was done with both since. If the set shows a text, the command takes it without failure. It
becomes one argument of the option, and nothing else in the command changes, exactly when there is
anything but dashes in the option. Otherwise the text is the output path of the command. -/
theorem takesFilters_iff {overwrite : Value} {ref : Ref .command} {s start : Session}
    (built : encoder overwrite s = .ok ref start) (calls : List (CommandCall ref))
    {option : String} {filters : Ref .filterSet}
    (defined : FilterSet.Defined option filters (CommandCall.afterCalls calls start))
    {text : String} {w : Workspace}
    (shown : FilterSet.renderNow filters (CommandCall.afterCalls calls start).workspace =
      .ok text w) (nonempty : text ≠ "") :
    ∃ name before after t,
      (CommandCall.afterCalls calls start).workspace.option? filters = some name ∧
      (CommandCall.afterCalls calls start).commands.get? ref = some before ∧
      setFilters ref [.filterSet filters] (CommandCall.afterCalls calls start) = .ok () t ∧
      t.commands.get? ref = some after ∧
      (before.TakesFilters after name text ↔ ∃ c ∈ option.toList, c ≠ '-') ∧
      ((∀ c ∈ option.toList, c = '-') → name = "" ∧ after = before.writingTo text) := by
  obtain ⟨rfl, -⟩ := FilterSet.renderNow_eq_ok shown
  have kept := defined.option
  obtain ⟨set, present, name⟩ := Option.map_eq_some_iff.1 kept
  obtain ⟨first, there, formed⟩ := encoder_wellFormed built
  obtain ⟨list, edited, reached⟩ := CommandCall.builds_calls calls start first there
  obtain ⟨t, done, taken⟩ := setFilters_returns present shown reached
  rw [name] at taken
  refine ⟨_, _, _, t, kept, reached, done, taken, ?_, ?_⟩
  · rw [← FilterSet.fresh_named_iff]
    refine ⟨fun takes => takes.named, fun named => ?_⟩
    exact takesFilters_filtered (edited.wellFormed formed) named (FilterSet.commandKey_fresh _)
      nonempty
  · intro dashes
    have unnamed : (FilterSet.fresh option).option = "" := by
      by_contra named
      obtain ⟨c, mem, other⟩ := (FilterSet.fresh_named_iff _).1 named
      exact other (dashes c mem)
    rw [unnamed]
    exact ⟨rfl, filtered_unnamed nonempty⟩

/-- A command that writes to a file while a set for an option gets a filter. -/
def volumeCalls (option : String) : List (CommandCall ⟨0⟩) :=
  [.option (.output (.text "a.mp3")),
    .elsewhere (do let _ ← Session.work (FilterSet.define (.text option)))
      (.bind (keeps_work _) fun _ => .pure _),
    .elsewhere (Session.work (FilterSet.addItems ⟨0⟩ [.text "volume=2"])) (keeps_work _)]

/-- The option of a set is given with its dash and gets its argument behind the output. -/
theorem takesFilters_volume :
    let now := CommandCall.afterCalls (volumeCalls "-af")
      ((encoder (.bool true)).after (.initial Settings.fromVariables))
    ∃ before after t,
      now.commands.get? ⟨0⟩ = some before ∧
      setFilters ⟨0⟩ [.filterSet ⟨0⟩] now = .ok () t ∧ t.commands.get? ⟨0⟩ = some after ∧
      before.TakesFilters after "af" "volume=2" := by
  intro now
  have built : encoder (.bool true) (.initial Settings.fromVariables) =
      .ok ⟨0⟩ ((encoder (.bool true)).after (.initial Settings.fromVariables)) := rfl
  let bare := CommandCall.afterCalls ((volumeCalls "-af").take 1)
    ((encoder (.bool true)).after (.initial Settings.fromVariables))
  have made := Session.work_of_ok (s := bare) (FilterSet.define_text (by decide : "-af" ≠ "") _)
  have begun : now = (Session.work (FilterSet.addItems ⟨0⟩ [.text "volume=2"])).after _ :=
    congrArg (Session.work (FilterSet.addItems ⟨0⟩ [.text "volume=2"])).after
      ((after_bind_pure _ (fun _ => ()) bare).trans (after_of_ok made))
  have defined : FilterSet.Defined "-af" ⟨0⟩ now := by
    rw [begun]
    exact (FilterSet.Defined.define made).shared (.graphs (.hold ⟨0⟩ [.text "volume=2"]))
  have shown : FilterSet.renderNow ⟨0⟩ now.workspace = .ok "volume=2" now.workspace := by
    rfl
  obtain ⟨name, before, after, t, known, there, done, taken, takes, -⟩ :=
    takesFilters_iff built (volumeCalls "-af") defined shown (by decide)
  obtain rfl : "af" = name := Option.some.inj known
  exact ⟨before, after, t, there, done, taken, takes.2 ⟨'a', by decide, by decide⟩⟩

/-- Of a dash alone nothing is left, and the text takes the place of the path. -/
theorem takesFilters_dash :
    (do let ref ← encoder (.bool true)
        edit ref (ArgumentList.setOutput (.text "a.mp3"))
        let filters ← Session.work (FilterSet.define (.text "-"))
        Session.work (FilterSet.addItems filters [.text "volume=2"])
        let line := (← read ref).commandLine
        setFilters ref [.filterSet filters]
        return (line, (← Session.work (FilterSet.read filters)).option, (← read ref).commandLine) :
      Step _).run' (.initial Settings.fromVariables) =
        some (["ffmpeg", "-y", "a.mp3"], "", ["ffmpeg", "-y", "volume=2"]) := by
  decide

end Command

end MediaCommand
