import MediaCommand.Proofs.Command.FilterOption

/-!
# Filters without a text

A command that takes filters without a text keeps its line. Items have no text if each of them has
none (`GraphItem.Idle`), but graphs in a set are joined with semicolons, whether there is anything in
them or not: a set of blank graphs has a text as soon as there are two of them.
`Command.idle_filters_keep_iff` says what a command makes of both.
-/

namespace MediaCommand

open MediaCommand.Action

/-! ## Sets of blank graphs -/

/-- A graph that nothing was put in. -/
structure Graph.IsBlank (graph : Graph) : Prop where
  inputs : graph.inputs = ""
  nodes : graph.nodes = []
  output : graph.outputLabel = ""

theorem Graph.IsBlank.render_eq {graph : Graph} (blank : graph.IsBlank) : graph.render = "" := by
  rw [render, chain, blank.inputs, blank.nodes, blank.output]
  rfl

/-- A number of semicolons. -/
def semicolons (count : Nat) : String := String.ofList (List.replicate count ';')

theorem semicolons_eq_empty_iff (count : Nat) : semicolons count = "" ↔ count = 0 := by
  simp [semicolons]

/-- Between empty texts there are only the semicolons that join them. -/
theorem intercalate_blanks (count : Nat) :
    ";".intercalate (List.replicate count "") = semicolons (count - 1) := by
  induction count with
  | zero => rfl
  | succ count ih =>
    cases count with
    | zero => rfl
    | succ others =>
      rw [List.replicate_succ] at ih ⊢
      rw [List.replicate_succ, String.intercalate_cons_cons, ih, ← String.toList_inj]
      simp [semicolons, List.replicate_succ]

/-- A set of blank graphs shows a semicolon for each of them but one. -/
theorem FilterSet.renderNow_blank {w : Workspace} {ref : Ref .filterSet} {set : FilterSet}
    (present : w.sets.get? ref = some set) (unsplit : set.split = none)
    (blank : ∀ graph ∈ set.graphs, ∃ found, w.graphs.get? graph = some found ∧ found.IsBlank) :
    renderNow ref w = .ok (semicolons (set.graphs.length - 1)) w := by
  have there : ∀ graph ∈ set.graphs, (w.graphs.get? graph).isSome := by
    intro graph mem
    obtain ⟨found, known, -⟩ := blank graph mem
    exact Option.isSome_iff_exists.2 ⟨found, known⟩
  have texts : set.graphs.map w.output = List.replicate set.graphs.length "" := by
    rw [List.map_eq_replicate_iff]
    intro graph mem
    obtain ⟨found, known, nothing⟩ := blank graph mem
    rw [Workspace.output, known, Option.elim, nothing.render_eq]
  rw [renderNow_apply present there, showing_unsplit unsplit, texts, intercalate_blanks]

/-! ## Options that are there already -/

/-- The value of an argument as it is written. -/
def Argument.written (a : Argument) : Option String :=
  a.value.map fun value => if a.quoted then doubleQuoted value else value

theorem Argument.tokens_eq (a : Argument) :
    a.tokens = (if a.key = outputKey then [] else [a.key]) ++ a.written.toList := rfl

/-- A text for an option changes the line unless it is empty or what is written there. -/
theorem Command.commandLine_filtered_eq_iff {command : Command}
    (formed : command.arguments.WellFormed) (option text : String) :
    (command.filtered option text).commandLine = command.commandLine ↔
      text = "" ∨ (command.arguments.find? option).bind Argument.written = some text := by
  by_cases silent : text = ""
  · simp [filtered, silent]
  have line : (command.filtered option text).commandLine =
      (command.arguments.assign option (some text) false).render [command.binary] := by
    rw [filtered, if_neg silent]
    rfl
  rw [line, or_iff_right silent, commandLine, ArgumentList.render, ArgumentList.render,
    List.append_cancel_left_eq]
  cases found : command.arguments.find? option with
  | none =>
    rw [formed.assign_absent found, List.flatMap_append, List.append_right_eq_self]
    simp [Argument.tokens_eq, Argument.written]
  | some a =>
    obtain ⟨front, back, split, under, first⟩ := ArgumentList.split_of_found found
    have assigned := formed.assign_present split (by simpa [Argument.matchesKey] using first)
      (ArgumentList.matchesKey_iff.2 under) (some text) false
    rw [assigned, split, List.flatMap_append, List.flatMap_append, List.append_cancel_left_eq,
      List.flatMap_cons, List.flatMap_cons, List.append_cancel_right_eq, Argument.tokens_eq,
      Argument.tokens_eq, List.append_cancel_left_eq, Option.bind_some, eq_comm]
    cases a.written with
    | none => simp [Argument.written]
    | some value => simp [Argument.written]

/-! ## Items without a text -/

/-- An item that adds nothing to a graph: it has no text, or an empty one. -/
def GraphItem.Idle (w : Workspace) (item : GraphItem) : Prop :=
  ∃ text v, Graph.expressionOf item w = .ok text v ∧ text.getD "" = ""

namespace GraphItem

variable {w : Workspace}

@[simp] theorem idle_nothing : Idle w .nothing := ⟨none, w, rfl, rfl⟩

@[simp] theorem idle_text_iff (s : String) : Idle w (.text s) ↔ s = "" := by
  constructor
  · rintro ⟨text, v, same, empty⟩
    cases same
    exact empty
  · rintro rfl
    exact ⟨_, w, rfl, rfl⟩

/-- A class is idle if it has no name of its own. -/
@[simp] theorem idle_cls_iff (cls : FilterClass) :
    Idle w (.cls cls) ↔ (w.names.view cls).getD "" = "" := by
  constructor
  · rintro ⟨text, v, same, empty⟩
    cases same
    exact empty
  · intro empty
    exact ⟨w.names.view cls, _, rfl, empty⟩

end GraphItem

namespace Workspace

variable {w u : Workspace} {graphs : Store .graph Graph} {sets : Store .filterSet FilterSet}

/-- Graphs that can be read are read alike where they all are. -/
theorem currentGraphs_kept
    (kept : ∀ ref found, w.graphs.get? ref = some found → u.graphs.get? ref = some found)
    {refs : List (Ref .graph)} {found : List Graph} {v : Workspace}
    (read : FilterSet.currentGraphs refs w = .ok found v) :
    FilterSet.currentGraphs refs u = .ok found u := by
  induction refs generalizing found v with
  | nil =>
    cases read
    rfl
  | cons ref rest ih =>
    obtain ⟨graph, _, first, later⟩ := bind_eq_ok.1 read
    obtain ⟨present, rfl⟩ := require_eq_ok.1 first
    obtain ⟨others, _, behind, done⟩ := bind_eq_ok.1 later
    cases done
    have again : Graph.read ref u = .ok graph u := require_of_some (kept ref graph present)
    exact (bind_of_ok again).trans (bind_of_ok (ih behind))

/-- A set that can be rendered is rendered alike where it and all graphs are. -/
theorem renderNow_kept
    (graphs : ∀ ref found, w.graphs.get? ref = some found → u.graphs.get? ref = some found)
    (sets : ∀ ref found, w.sets.get? ref = some found → u.sets.get? ref = some found)
    {ref : Ref .filterSet} {text : String} {v : Workspace}
    (shown : FilterSet.renderNow ref w = .ok text v) :
    FilterSet.renderNow ref u = .ok text u := by
  obtain ⟨-, set, present⟩ := FilterSet.renderNow_eq_ok shown
  have read : FilterSet.read ref w = .ok set w := require_of_some present
  have again : FilterSet.read ref u = .ok set u := require_of_some (sets ref set present)
  rw [FilterSet.renderNow, bind_of_ok read] at shown
  obtain ⟨found, _, current, done⟩ := bind_eq_ok.1 shown
  cases done
  exact (bind_of_ok again).trans (bind_of_ok (currentGraphs_kept graphs current))

/-- An item that is idle in the beginning is idle later. -/
theorem At.expressionOf_idle (place : w.At graphs sets u)
    (keptGraphs : ∀ ref found, w.graphs.get? ref = some found → graphs.get? ref = some found)
    (keptSets : ∀ ref found, w.sets.get? ref = some found → sets.get? ref = some found)
    {item : GraphItem} (idle : item.Idle w) :
    ∃ text v, Graph.expressionOf item u = .ok text v ∧ text.getD "" = "" ∧ w.At graphs sets v := by
  obtain ⟨text, v, run, empty⟩ := idle
  rw [← place.graphs] at keptGraphs
  rw [← place.sets] at keptSets
  cases item with
  | nothing => exact ⟨none, u, rfl, rfl, place⟩
  | text s =>
    cases run
    exact ⟨some s, u, rfl, empty, place⟩
  | node ref =>
    obtain ⟨shown, mid, rendered, done⟩ := bind_eq_ok.1 run
    cases done
    have again := place.realizes_render ref
    rw [outcome_of_ok rendered] at again
    obtain ⟨_, t, again, rfl, there⟩ := again
    exact ⟨some _, t, bind_of_ok again, empty, there⟩
  | graph ref =>
    obtain ⟨found, mid, read, done⟩ := bind_eq_ok.1 run
    cases done
    have again : Graph.read ref u = .ok found u :=
      require_of_some (keptGraphs ref found (require_eq_ok.1 read).1)
    exact ⟨some _, u, bind_of_ok again, empty, place⟩
  | split ref =>
    obtain ⟨_, _, _, later⟩ := bind_eq_ok.1 run
    obtain ⟨found, _, -, done⟩ := bind_eq_ok.1 later
    cases done
    simp [Split.render, Split.filterName] at empty
  | filterSet ref =>
    obtain ⟨shown, mid, rendered, done⟩ := bind_eq_ok.1 run
    cases done
    exact ⟨some _, u, bind_of_ok (renderNow_kept keptGraphs keptSets rendered), empty, place⟩
  | cls cls =>
    obtain ⟨name, t, again, same, there⟩ := place.realizes_lookup cls
    cases run
    exact ⟨name, t, again, same ▸ empty, there⟩
  | other kind => cases run

/-- Idle items leave a graph as it is. -/
theorem At.addItems_idle (place : w.At graphs sets u)
    (keptGraphs : ∀ ref found, w.graphs.get? ref = some found → graphs.get? ref = some found)
    (keptSets : ∀ ref found, w.sets.get? ref = some found → sets.get? ref = some found)
    {items : List GraphItem} (idle : ∀ item ∈ items, item.Idle w) (ref : Ref .graph) :
    ∃ v, Graph.addItems ref items u = .ok () v ∧ w.At graphs sets v := by
  induction items generalizing u with
  | nil => exact ⟨u, rfl, place⟩
  | cons item rest ih =>
    obtain ⟨first, others⟩ := List.forall_mem_cons.1 idle
    obtain ⟨text, mid, expressed, empty, there⟩ :=
      place.expressionOf_idle keptGraphs keptSets first
    obtain ⟨v, added, there⟩ := ih there others
    refine ⟨v, ?_, there⟩
    rw [Graph.addItems, bind_of_ok expressed]
    dsimp only
    rw [empty, if_neg (not_not.2 rfl)]
    exact added

end Workspace

/-- A simple set of idle items offers no text. -/
theorem FilterSet.offered_idle {items : List GraphItem} (bare : ∀ ref, items ≠ [.filterSet ref])
    {w : Workspace} (idle : ∀ item ∈ items, item.Idle w) :
    (offered (Command.filterSetOf items)).outcome w = .ok ((fresh simpleOption).option, "") := by
  let blank := Graph.fresh (some w.sets.next)
  let u : Workspace := { withSimple w with graphs := w.graphs.add blank }
  have place : w.At (w.graphs.add blank) (withSimple w).sets u :=
    ⟨(Workspace.Shows.same w).onGraphs _ _, rfl, rfl⟩
  obtain ⟨v, added, there⟩ := place.addItems_idle
    (fun _ _ present => Store.get?_add_of_some present)
    (fun _ _ present => Store.get?_add_of_some present) idle w.graphs.next
  have made : Graph.ofItems (some w.sets.next) items (withSimple w) = .ok w.graphs.next v :=
    (bind_of_ok (show Graph.enter blank (withSimple w) = .ok w.graphs.next u from rfl)).trans
      (bind_of_ok added)
  have held : v.sets.get? w.sets.next = some (fresh simpleOption) := by
    rw [there.sets]
    exact Store.get?_add_next _ _
  rw [outcome_offered_filterSetOf bare, outcome, bind_of_ok made, ← outcome,
    outcome_addGraph_offered held, there.graphs, Store.get?_add_next]
  rfl

namespace Command

variable {ref : Ref .command} {s : Session} {command : Command}

theorem filtered_empty (command : Command) (option : String) :
    command.filtered option "" = command := if_pos rfl

/-- Idle items leave the line of a command as it is. -/
theorem lineOfItems_idle (there : s.commands.get? ref = some command) {items : List GraphItem}
    (idle : ∀ item ∈ items, item.Idle s.workspace) :
    (lineOfItems ref items).outcome s = .ok command.commandLine := by
  rw [lineOfItems_eq, ← toOption_outcome_eq_some]
  by_cases lone : ∃ filters, items = [.filterSet filters]
  · obtain ⟨filters, rfl⟩ := lone
    obtain ⟨text, v, run, empty⟩ := idle _ (List.mem_singleton_self _)
    obtain ⟨shown, _, rendered, done⟩ := bind_eq_ok.1 run
    cases done
    obtain ⟨rfl, set, present⟩ := FilterSet.renderNow_eq_ok rendered
    rw [show filterSetOf [.filterSet filters] = pure filters from rfl,
      toOption_lineOf_pure present rendered, there, Option.map_some,
      show shown = "" from empty, filtered_empty]
  · rw [toOption_lineOf, FilterSet.offered_idle (not_exists.1 lone) idle, there]
    exact congrArg (fun known : Command => some known.commandLine) (filtered_empty command _)

/-- **Filters without a text.** A command was built and anything was done with it since. Take a set
without a split whose graphs are all blank. The command takes it without failure, and its line stays
as it is exactly if there is at most one graph, or if the option of the set is already written with
the semicolons that join the graphs; otherwise they are written there. Items that all add nothing,
however many they are, always leave the line as it is. -/
theorem idle_filters_keep_iff {overwrite : Value} {start : Session}
    (built : encoder overwrite s = .ok ref start) (calls : List (CommandCall ref)) :
    ∃ command, (CommandCall.afterCalls calls start).commands.get? ref = some command ∧
      (∀ filters set,
        (CommandCall.afterCalls calls start).workspace.sets.get? filters = some set →
        set.split = none →
        (∀ graph ∈ set.graphs, ∃ found,
          (CommandCall.afterCalls calls start).workspace.graphs.get? graph = some found ∧
          found.IsBlank) →
        ∃ line, (lineOfItems ref [.filterSet filters]).outcome
            (CommandCall.afterCalls calls start) = .ok line ∧
          line = (command.filtered set.option (semicolons (set.graphs.length - 1))).commandLine ∧
          (line = command.commandLine ↔ set.graphs.length ≤ 1 ∨
            (command.arguments.find? set.option).bind Argument.written =
              some (semicolons (set.graphs.length - 1)))) ∧
      ∀ items : List GraphItem,
        (∀ item ∈ items, item.Idle (CommandCall.afterCalls calls start).workspace) →
        (lineOfItems ref items).outcome (CommandCall.afterCalls calls start) =
          .ok command.commandLine := by
  obtain ⟨first, known, formed⟩ := encoder_wellFormed built
  obtain ⟨list, edited, there⟩ := CommandCall.builds_calls calls start first known
  refine ⟨_, there, fun filters set present unsplit blank => ?_, fun items idle =>
    lineOfItems_idle there idle⟩
  have shown := FilterSet.renderNow_blank present unsplit blank
  have line : ((lineOf ref (pure filters)).outcome _).toOption = _ :=
    toOption_lineOf_pure present shown
  rw [there] at line
  refine ⟨_, toOption_outcome_eq_some.1 line, rfl, ?_⟩
  have few : set.graphs.length - 1 = 0 ↔ set.graphs.length ≤ 1 := by omega
  rw [commandLine_filtered_eq_iff (edited.wellFormed formed), semicolons_eq_empty_iff, few]

/-- A simple set gets two blank graphs. -/
def blankCalls : List (CommandCall ⟨0⟩) :=
  [.elsewhere (do let _ ← Session.work (FilterSet.ofOption (.text "vf")))
      (.bind (keeps_work _) fun _ => .pure _),
    .elsewhere (Session.work (FilterSet.addItems ⟨0⟩ [])) (keeps_work _),
    .elsewhere (Session.work (FilterSet.addItems ⟨0⟩ [])) (keeps_work _)]

/-- Their semicolon is written, but nothing for idle items. -/
theorem idle_filters_keep_blankCalls :
    let now := CommandCall.afterCalls blankCalls
      ((encoder (.bool false)).after (.initial Settings.fromVariables))
    (lineOfItems ⟨0⟩ [.filterSet ⟨0⟩]).outcome now = .ok ["ffmpeg", "-vf", ";"] ∧
      (lineOfItems ⟨0⟩ [.nothing, .text "", .cls .flip]).outcome now = .ok ["ffmpeg"] := by
  intro now
  have built : encoder (.bool false) (.initial Settings.fromVariables) =
      .ok ⟨0⟩ ((encoder (.bool false)).after (.initial Settings.fromVariables)) := rfl
  obtain ⟨command, there, sets, items⟩ := idle_filters_keep_iff built blankCalls
  cases there
  have blank (graph : Ref .graph) (mem : graph ∈ [⟨0⟩, ⟨1⟩]) :
      ∃ found, now.workspace.graphs.get? graph = some found ∧ found.IsBlank := by
    simp only [List.mem_cons, List.not_mem_nil, or_false] at mem
    rcases mem with rfl | rfl
    · exact ⟨.fresh none, rfl, rfl, rfl, rfl⟩
    · exact ⟨.fresh none, rfl, rfl, rfl, rfl⟩
  obtain ⟨line, taken, rfl, -⟩ := sets ⟨0⟩ ⟨"vf", none, [⟨0⟩, ⟨1⟩]⟩ rfl rfl blank
  refine ⟨taken.trans rfl, items _ ?_⟩
  simp only [List.forall_mem_cons, GraphItem.idle_nothing, GraphItem.idle_text_iff,
    GraphItem.idle_cls_iff, true_and]
  exact ⟨rfl, List.forall_mem_nil _⟩

/-- Two blank graphs of a set that is not empty put an option with nothing but their separator on the
command line. -/
theorem blank_graphs_written :
    (do let ref ← encoder (.bool false)
        let filters ← Session.work (FilterSet.ofOption (.text "vf"))
        Session.work (FilterSet.addItems filters [])
        setFilters ref [.filterSet filters]
        let once := (← read ref).commandLine
        Session.work (FilterSet.addItems filters [])
        setFilters ref [.filterSet filters]
        return (once, (← read ref).commandLine) : Step _).run' (.initial Settings.fromVariables) =
      some (["ffmpeg"], ["ffmpeg", "-vf", ";"]) := by
  decide

end Command

end MediaCommand
