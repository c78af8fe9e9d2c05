import MediaCommand.Proofs.Command.Calls
import MediaCommand.Proofs.Graph.Owners
import MediaCommand.Proofs.Graph.Routes
import MediaCommand.Settings.Variables

/-!
# Routes to a filter option

A command takes from a filter set its option and its text (`FilterSet.offered`) and nothing else.
So two ways to make a set come to one command line as soon as they offer the same
(`toOption_lineOf`), and items alone do what a simple set of them does.
-/

namespace MediaCommand

open MediaCommand.Action

theorem Session.work_of_ok {α : Type} {action : Work α} {s : Session} {a : α} {w : Workspace}
    (run : action s.workspace = .ok a w) : work action s = .ok a { s with workspace := w } :=
  within_of_ok run

theorem Session.work_of_error {α : Type} {action : Work α} {s : Session} {failure : Failure}
    {w : Workspace} (run : action s.workspace = .error failure w) :
    work action s = .error failure { s with workspace := w } :=
  within_of_error run

namespace FilterSet

/-- A simple set that takes items. -/
def simpleOf (items : List GraphItem) : Work (Ref .filterSet) := do
  let set ← enter (.fresh simpleOption)
  addItems set items
  return set

/-- A set that is shown is there, and it is shown as it is. -/
theorem renderNow_eq_ok {ref : Ref .filterSet} {text : String} {w v : Workspace}
    (shown : renderNow ref w = .ok text v) : v = w ∧ ∃ set, w.sets.get? ref = some set := by
  have same := respects_renderNow (R := Eq) ref w
  rw [after_of_ok shown] at same
  refine ⟨same.symm, ?_⟩
  cases found : w.sets.get? ref with
  | some set => exact ⟨set, rfl⟩
  | none =>
    have read : FilterSet.read ref w = .error .noObject w := require_of_none found
    cases (bind_of_error read).symm.trans shown

end FilterSet

namespace Command

/-- The command line after filters are set from a set that is made. -/
def lineOf (ref : Ref .command) (made : Work (Ref .filterSet)) : Step (List String) := do
  let filters ← Session.work made
  setFilters ref [.filterSet filters]
  return (← read ref).commandLine

/-- The command line after filters are set from items. -/
def lineOfItems (ref : Ref .command) (items : List GraphItem) : Step (List String) := do
  setFilters ref items
  return (← read ref).commandLine

/-- The command after a filter option is given a text. Without a text it stays as it is. -/
def filtered (command : Command) (option text : String) : Command :=
  if text = "" then command
  else { command with arguments := command.arguments.assign option (some text) false }

variable {ref : Ref .command} {s : Session}

/-- Items are first made into a set. -/
theorem lineOfItems_eq (items : List GraphItem) :
    lineOfItems ref items = lineOf ref (filterSetOf items) := by
  funext s
  simp only [lineOfItems, lineOf, setFilters, bind_assoc]
  rfl

theorem edit_absent {α : Type} (absent : s.commands.get? ref = none) (edit : ArgumentList.Edit α) :
    Command.edit ref edit s = .error .noObject s := by
  have read : ArgumentList.read (.ofCommand ref) s = .error .noObject s := by
    simp only [ArgumentList.read, get_bind_apply, absent]
    rfl
  exact bind_of_error read

/-- The option of a set that is shown is written, if its text is not empty. -/
theorem setFilters_apply {filters : Ref .filterSet} {set : FilterSet} {text : String}
    (present : s.workspace.sets.get? filters = some set)
    (shown : FilterSet.renderNow filters s.workspace = .ok text s.workspace) :
    setFilters ref [.filterSet filters] s =
      if text = "" then .ok () s
      else Command.edit ref (ArgumentList.write set.option (.text text)) s := by
  have given : Session.work (filterSetOf [.filterSet filters]) s = .ok filters s := rfl
  have rendered : Session.work (FilterSet.renderNow filters) s = .ok text s :=
    Session.work_of_ok shown
  have read : Session.work (FilterSet.read filters) s = .ok set s :=
    Session.work_of_ok (require_of_some present)
  rw [setFilters, bind_of_ok given, bind_of_ok rendered]
  dsimp only
  by_cases silent : text = ""
  · rw [if_pos silent, if_neg (not_not.2 silent)]
    rfl
  · rw [if_neg silent, if_pos silent, bind_of_ok read]

theorem setFilters_returns {filters : Ref .filterSet} {set : FilterSet} {text : String}
    {command : Command} (present : s.workspace.sets.get? filters = some set)
    (shown : FilterSet.renderNow filters s.workspace = .ok text s.workspace)
    (there : s.commands.get? ref = some command) :
    ∃ t, setFilters ref [.filterSet filters] s = .ok () t ∧
      t.commands.get? ref = some (command.filtered set.option text) := by
  have given : setFilters ref [.filterSet filters] s = _ := setFilters_apply present shown
  by_cases silent : text = ""
  · rw [if_pos silent] at given
    exact ⟨s, given, by rwa [filtered, if_pos silent]⟩
  · rw [if_neg silent, edit_apply there, within_of_ok (ArgumentList.write_text _ _ _)] at given
    refine ⟨_, given, ?_⟩
    rw [filtered, if_neg silent]
    exact get?_settled there _

/-- The line of a command that takes a set depends on the option and the text of the set. -/
theorem toOption_lineOf_pure {filters : Ref .filterSet} {set : FilterSet} {text : String}
    (present : s.workspace.sets.get? filters = some set)
    (shown : FilterSet.renderNow filters s.workspace = .ok text s.workspace) :
    ((lineOf ref (pure filters)).outcome s).toOption =
      (s.commands.get? ref).map fun command => (command.filtered set.option text).commandLine := by
  have begun : lineOf ref (pure filters) s =
    (do setFilters ref [.filterSet filters]; return (← read ref).commandLine : Step _) s := rfl
  cases there : s.commands.get? ref with
  | none =>
    have given : setFilters ref [.filterSet filters] s = _ := setFilters_apply present shown
    have fails : ∃ failure t, lineOf ref (pure filters) s = .error failure t := by
      by_cases silent : text = ""
      · have read : Command.read ref s = .error .noObject s := require_of_none there
        rw [if_pos silent] at given
        exact ⟨_, _, begun.trans ((bind_of_ok given).trans (bind_of_error read))⟩
      · rw [if_neg silent, edit_absent there] at given
        exact ⟨_, _, begun.trans (bind_of_error given)⟩
    obtain ⟨failure, t, run⟩ := fails
    rw [outcome_of_error run]
    rfl
  | some command =>
    obtain ⟨t, run, kept⟩ := setFilters_returns present shown there
    have read : Command.read ref t = .ok _ t := require_of_some kept
    rw [outcome_of_ok (begun.trans ((bind_of_ok run).trans (bind_of_ok read)))]
    rfl

/-- The line of a command depends on the option and the text that it is offered. -/
theorem toOption_lineOf (made : Work (Ref .filterSet)) :
    ((lineOf ref made).outcome s).toOption =
      ((FilterSet.offered made).outcome s.workspace).toOption.bind fun offer =>
        (s.commands.get? ref).map fun command =>
          (command.filtered offer.1 offer.2).commandLine := by
  cases run : made s.workspace with
  | error failure w =>
    have offer : FilterSet.offered made s.workspace = .error failure w := bind_of_error run
    have line : lineOf ref made s = .error failure _ := bind_of_error (Session.work_of_error run)
    rw [outcome_of_error offer, outcome_of_error line]
    rfl
  | ok filters w =>
    have offer : FilterSet.offered made s.workspace = FilterSet.offered (pure filters) w :=
      bind_of_ok run
    have line : lineOf ref made s = lineOf ref (pure filters) { s with workspace := w } :=
      bind_of_ok (Session.work_of_ok run)
    rw [outcome, outcome, offer, line, ← outcome, ← outcome]
    cases shown : FilterSet.renderNow filters w with
    | error failure v =>
      have offers : FilterSet.offered (pure filters) w = .error failure v :=
        (pure_bind_apply ..).trans (bind_of_error shown)
      have given : setFilters ref [.filterSet filters] { s with workspace := w } =
          .error failure { s with workspace := v } :=
        (pure_bind_apply ..).trans (bind_of_error (Session.work_of_error shown))
      have line : lineOf ref (pure filters) { s with workspace := w } = .error failure _ :=
        (pure_bind_apply ..).trans (bind_of_error given)
      rw [outcome_of_error offers, outcome_of_error line]
      rfl
    | ok text v =>
      obtain ⟨rfl, set, present⟩ := FilterSet.renderNow_eq_ok shown
      have read : FilterSet.read filters v = .ok set v := require_of_some present
      have offers : FilterSet.offered (pure filters) v = .ok (set.option, text) v :=
        (bind_of_ok shown).trans (bind_of_ok read)
      rw [outcome_of_ok offers]
      exact toOption_lineOf_pure present shown

end Command

namespace FilterSet

/-- A new set that takes one graph offers the text of the graph, which must be there. -/
theorem outcome_addGraph_offered {option : String} {ref : Ref .filterSet} {w : Workspace}
    (fresh : w.sets.get? ref = some (fresh option)) (graph : Ref .graph) :
    (do addGraph ref graph; offered (pure ref) : Work _).outcome w =
      ((w.graphs.get? graph).elim (.error .noObject) fun found =>
        .ok ((FilterSet.fresh option).option, found.render)) := by
  let t : Workspace := { w with sets := w.sets.modify ref fun set =>
    { set with graphs := set.graphs ++ [graph] } }
  have added : addGraph ref graph w = .ok () t := FilterSet.change_apply fresh _
  have held : t.sets.get? ref = some { FilterSet.fresh option with graphs := [graph] } := by
    change (w.sets.modify ref _).get? ref = _
    rw [← Store.modify_of_some fresh, Store.get?_put_self fresh]
    rfl
  have read : FilterSet.read ref t = .ok _ t := require_of_some held
  rw [outcome, bind_of_ok added, ← outcome]
  cases present : w.graphs.get? graph with
  | none =>
    have missing : Graph.read graph t = .error .noObject t := require_of_none present
    have failed : renderNow ref t = .error .noObject t :=
      (bind_of_ok read).trans (bind_of_error (bind_of_error missing))
    exact outcome_of_error ((pure_bind_apply ..).trans (bind_of_error failed))
  | some found =>
    have there : ∀ other ∈ [graph], (t.graphs.get? other).isSome := by simp [t, present]
    have text := renderNow_apply held there
    have run : offered (pure ref) t = .ok _ t := (bind_of_ok text).trans (bind_of_ok read)
    rw [outcome_of_ok run, showing_unsplit rfl]
    simp [Workspace.output, t, present]

/-- A graph of one graph has its text. -/
theorem ofItems_graph {w : Workspace} {graph : Ref .graph} {found : Graph}
    (present : w.graphs.get? graph = some found) (owner : Option (Ref .filterSet)) :
    ∃ t made, Graph.ofItems owner [.graph graph] w = .ok w.graphs.next t ∧ t.sets = w.sets ∧
      t.graphs.get? w.graphs.next = some made ∧ made.render = found.render := by
  let u : Workspace := { w with graphs := w.graphs.add (.fresh owner) }
  have entered : Graph.enter (.fresh owner) w = .ok w.graphs.next u := rfl
  have here : u.graphs.get? w.graphs.next = some (.fresh owner) := Store.get?_add_next _ _
  have read : Graph.read graph u = .ok found u :=
    require_of_some (Store.get?_add_of_some present)
  have expression : Graph.expressionOf (.graph graph) u = .ok (some found.render) u :=
    bind_of_ok read
  have added : ∃ t made, Graph.addItems w.graphs.next [.graph graph] u = .ok () t ∧
      t.sets = w.sets ∧ t.graphs.get? w.graphs.next = some made ∧ made.render = found.render := by
    rw [Graph.addItems, bind_of_ok expression]
    dsimp only [Option.getD_some]
    by_cases silent : found.render = ""
    · rw [if_neg (not_not.2 silent)]
      exact ⟨u, _, rfl, rfl, here, silent.symm⟩
    · have changed := Graph.change_apply here fun made =>
        { made with nodes := made.nodes ++ [found.render] }
      rw [if_pos silent, bind_of_ok changed]
      refine ⟨_, { Graph.fresh owner with nodes := [found.render] }, rfl, rfl, ?_, ?_⟩
      · change Store.get? ((w.graphs.add (.fresh owner)).modify _ _) _ = _
        rw [Store.modify_add_next, Store.get?_add_next]
        rfl
      · simp [Graph.render, Graph.chain, Graph.fresh, Graph.outputLabel]
  obtain ⟨t, made, added, sets, there, same⟩ := added
  exact ⟨t, made, (bind_of_ok entered).trans (bind_of_ok added), sets, there, same⟩

/-- A workspace with a new simple set. -/
def withSimple (w : Workspace) : Workspace := { w with sets := w.sets.add (fresh simpleOption) }

theorem outcome_offered_simpleOf (items : List GraphItem) (w : Workspace) :
    (offered (simpleOf items)).outcome w =
      (do addItems w.sets.next items; offered (pure w.sets.next) : Work _).outcome
        (withSimple w) := by
  have entered : enter (fresh simpleOption) w = .ok w.sets.next (withSimple w) := rfl
  simp only [offered, simpleOf, bind_assoc, pure_bind]
  rw [outcome, bind_of_ok entered, ← outcome]

theorem outcome_offered_filterSetOf {items : List GraphItem}
    (bare : ∀ ref, items ≠ [.filterSet ref]) (w : Workspace) :
    (offered (Command.filterSetOf items)).outcome w =
      (do
        let graph ← Graph.ofItems (some w.sets.next) items
        addGraph w.sets.next graph
        offered (pure w.sets.next) : Work _).outcome (withSimple w) := by
  have entered : enter (fresh simpleOption) w = .ok w.sets.next (withSimple w) := rfl
  rw [Command.filterSetOf.eq_2 _ bare]
  simp only [offered, start, bind_assoc, pure_bind]
  rw [outcome, bind_of_ok entered, ← outcome]

/-- Items alone offer what a simple set of them does. -/
theorem offered_filterSetOf {items : List GraphItem} (bare : ∀ ref, items ≠ [.filterSet ref])
    {w : Workspace} {offer : String × String}
    (offers : (offered (simpleOf items)).outcome w = .ok offer) :
    (offered (Command.filterSetOf items)).outcome w = .ok offer := by
  rw [outcome_offered_simpleOf] at offers
  rw [outcome_offered_filterSetOf bare]
  unfold addItems at offers
  split at offers
  -- The set takes the graph itself, while the items go into a new graph.
  · next graph =>
    have held : (withSimple w).sets.get? w.sets.next = some (fresh simpleOption) :=
      Store.get?_add_next _ _
    rw [outcome_addGraph_offered held] at offers
    cases present : (withSimple w).graphs.get? graph with
    | none =>
      rw [present] at offers
      cases offers
    | some found =>
      obtain ⟨t, made, built, sets, there, same⟩ := ofItems_graph present (some w.sets.next)
      rw [outcome, bind_of_ok built, ← outcome,
        outcome_addGraph_offered (by rw [sets]; exact held), there, ← offers, present, Option.elim,
        same]
      rfl
  · cases offers
  -- Both make a new graph, of different owners.
  · rw [← offers]
    simp only [bind_assoc]
    refine Graph.outcome_ofItems_bind (fun graph => ?_) _ _ _ _
    exact .bind (Workspace.SameButOwners.alike_addGraph _ _) fun _ => .bind (.pure _) fun ref =>
      .bind (Workspace.SameButOwners.alike_renderNow ref) fun _ =>
        .bind (Workspace.SameButOwners.alike_require fun _ _ => rfl) fun _ => .pure _

end FilterSet

/-- **Construction routes agree.** Take any statements, each of input labels, items that are texts,
nodes or classes, and an output label. A set of them can be built for an option by many routes:
statement by statement, the graph is started from the set or made apart and then added, its nodes
and classes as they are or replaced by their texts beforehand. By every route the set has the text
of the statements as they are planned, and a command that takes the set has the line that goes with
this text; a route fails only where all do. It is the same for a second set that is built after the
first, when nodes have been rendered.

Items alone, no set among them, give a command the line that a simple set of them gives, whenever
that can be had. -/
theorem construction_routes_agree :
    (∀ (s : Session) (command : Ref .command) (option : String) (plans : List Plan),
      let text := Plan.text? s.workspace plans
      let line := text.bind fun text => (s.commands.get? command).map fun found =>
        (found.filtered (FilterSet.fresh option).option text).commandLine
      ∀ steps : List (Route × Plan), steps.map Prod.snd = plans →
        let made := FilterSet.built option steps
        ((FilterSet.shown made).outcome s.workspace).toOption = text ∧
        ((Command.lineOf command made).outcome s).toOption = line ∧
        ∀ set w, made s.workspace = .ok set w →
          ∀ others : List (Route × Plan), others.map Prod.snd = plans →
            let again := FilterSet.built option others
            ((FilterSet.shown again).outcome w).toOption = text ∧
            ((Command.lineOf command again).outcome { s with workspace := w }).toOption = line) ∧
    ∀ (s : Session) (command : Ref .command) (items : List GraphItem),
      (∀ set, .filterSet set ∉ items) → ∀ line,
        (Command.lineOf command (FilterSet.simpleOf items)).outcome s = .ok line →
        (Command.lineOfItems command items).outcome s = .ok line := by
  constructor
  · intro s command option plans text line
    have agree (u : Workspace) (shows : s.workspace.Shows u) (steps : List (Route × Plan))
        (planned : steps.map Prod.snd = plans) :
        ((FilterSet.shown (FilterSet.built option steps)).outcome u).toOption = text ∧
        ((Command.lineOf command (FilterSet.built option steps)).outcome
          { s with workspace := u }).toOption = line := by
      constructor
      · rw [shows.toOption_shown, planned]
      · rw [Command.toOption_lineOf, shows.toOption_offered, planned, Option.bind_map]
        rfl
    intro steps planned made
    obtain ⟨shown, taken⟩ := agree s.workspace (.same _) steps planned
    refine ⟨shown, taken, fun set w run others again => ?_⟩
    exact agree w ((Workspace.Shows.same _).built run) others again
  · intro s command items bare line run
    have alone (set : Ref .filterSet) : items ≠ [.filterSet set] := by
      rintro rfl
      exact bare set (List.mem_singleton_self _)
    rw [← toOption_outcome_eq_some, Command.toOption_lineOf, Option.bind_eq_some_iff] at run
    obtain ⟨offer, offers, written⟩ := run
    have same := FilterSet.offered_filterSetOf alone (toOption_outcome_eq_some.1 offers)
    rw [Command.lineOfItems_eq, ← toOption_outcome_eq_some, Command.toOption_lineOf, same]
    exact written

/-- A session with a command, a picture and a place to lay it over. -/
def watermarkSession : Session :=
  let nodes : Work Unit := do
    let _ ← Node.enter (Node.movie .movie (.text "test.jpg"))
    let _ ← Node.enter (Node.overlay .overlay (.int 10) (.int 20))
  { Session.initial Settings.fromVariables with
    workspace := nodes.after .initial
    commands := Store.empty.add ⟨.ffmpeg, "ffmpeg", .empty⟩ }

/-- The picture goes over the input, which is scaled. -/
def watermarkPlans : List Plan :=
  [⟨[], [.node ⟨0⟩], .text "wm"⟩,
    ⟨[.text "in", .text "wm"], [.node ⟨1⟩, .named .fps, .text "scale=1280:720"], .text "out"⟩]

/-- The watermark by one route. -/
def watermarkBy (route : Route) : Work (Ref .filterSet) :=
  FilterSet.built "filter_complex" (watermarkPlans.map fun plan => (route, plan))

/-- The statements are started from one set, and then made apart of texts for another. -/
theorem construction_routes_watermark :
    let line := ["ffmpeg", "-filter_complex",
      "movie='test.jpg'[wm];[in][wm]overlay=10:20,fps,scale=1280:720[out]"]
    let later := (watermarkBy ⟨.started, false⟩).after watermarkSession.workspace
    (Command.lineOf ⟨0⟩ (watermarkBy ⟨.started, false⟩)).outcome watermarkSession = .ok line ∧
      (Command.lineOf ⟨0⟩ (watermarkBy ⟨.apart, true⟩)).outcome
        { watermarkSession with workspace := later } = .ok line ∧
      (Command.lineOfItems ⟨0⟩ [.node ⟨1⟩, .text "scale=1280:720"]).outcome watermarkSession =
        .ok ["ffmpeg", "-vf", "overlay=10:20,scale=1280:720"] := by
  intro line later
  obtain ⟨routes, alone⟩ := construction_routes_agree
  have planned (route : Route) :
      (watermarkPlans.map fun plan => (route, plan)).map Prod.snd = watermarkPlans := rfl
  have built := routes watermarkSession ⟨0⟩ "filter_complex" watermarkPlans
  obtain ⟨-, first, again⟩ := built _ (planned ⟨.started, false⟩)
  have run : watermarkBy ⟨.started, false⟩ watermarkSession.workspace = .ok ⟨0⟩ later :=
    eq_ok_of_outcome (toOption_outcome_eq_some.1 (by decide +kernel))
  obtain ⟨-, second⟩ := again ⟨0⟩ later run _ (planned ⟨.apart, true⟩)
  have computed : ((Plan.text? watermarkSession.workspace watermarkPlans).bind fun text =>
      (watermarkSession.commands.get? ⟨0⟩).map fun found =>
        (found.filtered (FilterSet.fresh "filter_complex").option text).commandLine) = some line := by
    decide +kernel
  refine ⟨toOption_outcome_eq_some.1 (first.trans computed),
    toOption_outcome_eq_some.1 (second.trans computed), ?_⟩
  refine alone watermarkSession ⟨0⟩ [.node ⟨1⟩, .text "scale=1280:720"] (by simp) _ ?_
  exact toOption_outcome_eq_some.1 (by decide +kernel)

end MediaCommand
