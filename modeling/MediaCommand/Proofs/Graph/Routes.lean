import MediaCommand.Proofs.Graph.Plans

/-!
# Routes to a filter set

A set can be built graph by graph from the set itself or of graphs made apart, and its nodes and
classes may be replaced by their texts before. What it shows in the end can be read off the plans
of its graphs in the workspace that the building starts from, whatever the route.
-/

namespace MediaCommand

open MediaCommand.Action

/-! ## Routes -/

/-- How a graph gets into a set: it is started from the set, or made apart and then added. -/
inductive Way where
  | started
  | apart

namespace Way

/-- The owner of a graph that gets into a set. -/
def owner (set : Ref .filterSet) : Way → Option (Ref .filterSet)
  | .started => some set
  | .apart => none

/-- Builds a graph into a set, and comes back to the set. -/
def build (plan : Plan) (set : Ref .filterSet) : Way → Work (Ref .filterSet)
  | .started => do
    let graph ← FilterSet.startFrom set plan.inputs
    plan.fill graph
    Graph.owningSet graph
  | .apart => do
    let graph ← Graph.ofInputs none plan.inputs
    plan.fill graph
    FilterSet.addItems set [.graph graph]
    return set

end Way

namespace Workspace

variable {w u : Workspace} {base graphs : Store .graph Graph} {sets : Store .filterSet FilterSet}

/-- The sets after one of them has taken graphs. -/
def holding (sets : Store .filterSet FilterSet) (set : Ref .filterSet)
    (graphs : List (Ref .graph)) : Store .filterSet FilterSet :=
  sets.modify set fun old => { old with graphs := old.graphs ++ graphs }

theorem holding_nil (sets : Store .filterSet FilterSet) (set : Ref .filterSet) :
    holding sets set [] = sets := by
  have unchanged : (fun old : FilterSet => { old with graphs := old.graphs ++ [] }) = id :=
    funext fun old => by rw [List.append_nil, id]
  rw [holding, unchanged, Store.modify, List.modify_id]

theorem holding_holding (sets : Store .filterSet FilterSet) (set : Ref .filterSet)
    (first second : List (Ref .graph)) :
    holding (holding sets set first) set second = holding sets set (first ++ second) := by
  simp only [holding, Store.modify, List.modify_modify_eq, Function.comp_def, List.append_assoc]

theorem At.addGraph (place : w.At graphs sets u) {set : Ref .filterSet}
    (there : (sets.get? set).isSome) (graph : Ref .graph) :
    ∃ v, FilterSet.addGraph set graph u = .ok () v ∧ w.At graphs (holding sets set [graph]) v := by
  obtain ⟨old, present⟩ := Option.isSome_iff_exists.1 there
  rw [← place.sets] at present
  refine ⟨_, FilterSet.change_apply present _, place.shows.onGraphs _ _, place.graphs, ?_⟩
  rw [place.sets]
  rfl

theorem At.realizes_ofInputs (place : w.At base sets u) (owner : Option (Ref .filterSet))
    (labels : List Value) :
    Realizes ((wrapAll labels).outcome w.tokens).toOption
      (fun inputs ref v => ref = base.next ∧
        w.At (base.add { Graph.fresh owner with inputs }) sets v)
      (Graph.ofInputs owner labels) u := by
  have entered : Graph.enter (.fresh owner) u =
      .ok base.next { u with graphs := base.add (.fresh owner) } := by
    rw [← place.graphs]
    rfl
  have made : w.At (base.add (.fresh owner)) sets { u with graphs := base.add (.fresh owner) } :=
    ⟨place.shows.onGraphs _ _, rfl, place.sets⟩
  refine .after entered ((made.realizes_setInputs labels).before fun inputs _ v there => ?_)
  exact ⟨base.next, v, rfl, rfl, there⟩

theorem At.realizes_startFrom (place : w.At base sets u) {set : Ref .filterSet}
    (there : (sets.get? set).isSome) (labels : List Value) :
    Realizes ((wrapAll labels).outcome w.tokens).toOption
      (fun inputs ref v => ref = base.next ∧
        w.At (base.add { Graph.fresh (some set) with inputs }) (holding sets set [base.next]) v)
      (FilterSet.startFrom set labels) u := by
  refine (place.realizes_ofInputs (some set) labels).before ?_
  rintro inputs _ t ⟨rfl, place⟩
  obtain ⟨v, added, place⟩ := place.addGraph there base.next
  exact ⟨base.next, v, bind_of_ok added, rfl, place⟩

/-- Either way the graph is as planned, and the set holds it behind its others. -/
theorem At.realizes_build (place : w.At base sets u) {set : Ref .filterSet}
    (there : (sets.get? set).isSome) (plan : Plan) (way : Way) :
    Realizes (plan.drawn w)
      (fun graph ref v => ref = set ∧
        w.At (base.add { graph with owner := way.owner set }) (holding sets set [base.next]) v)
      (way.build plan set) u := by
  cases way with
  | started =>
    refine .bind (place.realizes_startFrom there plan.inputs) ?_
    rintro inputs _ t - ⟨rfl, place⟩
    refine (place.realizes_fill plan).before ?_
    rintro graph _ v place
    have read : Graph.read base.next v = .ok { graph with owner := some set } v :=
      require_of_some (by rw [place.graphs, Store.get?_add_next])
    exact ⟨set, v, bind_of_ok read, rfl, place⟩
  | apart =>
    refine .bind (place.realizes_ofInputs none plan.inputs) ?_
    rintro inputs _ t - ⟨rfl, place⟩
    refine (place.realizes_fill plan).before ?_
    rintro graph _ v place
    obtain ⟨t, added, place⟩ := place.addGraph there base.next
    exact ⟨set, t, bind_of_ok added, rfl, place⟩

end Workspace

/-- The texts in place of the ingredients of a plan. -/
def Plan.replaced (plan : Plan) : Work Plan := do
  return { plan with ingredients := ← plan.ingredients.mapM Ingredient.replaced }

/-- How a graph is built: the way into the set, and whether its ingredients are replaced before any
graph is built. -/
structure Route where
  way : Way
  inAdvance : Bool

/-- A plan that is ready to be built. -/
def Route.prepare (step : Route × Plan) : Work (Way × Plan) := do
  let plan ← if step.1.inAdvance then step.2.replaced else pure step.2
  return (step.1.way, plan)

namespace FilterSet

/-- Builds graphs into a set in turn. -/
def buildAll (set : Ref .filterSet) : List (Way × Plan) → Work (Ref .filterSet)
  | [] => return set
  | (way, plan) :: rest => do buildAll (← way.build plan set) rest

/-- A new set with its graphs, each built by a route of its own. -/
def built (option : String) (steps : List (Route × Plan)) : Work (Ref .filterSet) := do
  let ready ← steps.mapM Route.prepare
  let set ← enter (.fresh option)
  buildAll set ready

end FilterSet

/-- What a plan is when it is ready. -/
def Route.prepared? (w : Workspace) (step : Route × Plan) : Option (Way × Plan) :=
  if step.1.inAdvance then
    (step.2.ingredients.mapM (Ingredient.text? w)).bind fun texts =>
      some (step.1.way, { step.2 with ingredients := texts.map .text })
  else some (step.1.way, step.2)

/-- Graphs as they were planned, but for their owners. -/
def Store.Draws (store : Store .graph Graph) (refs : List (Ref .graph)) (graphs : List Graph) :
    Prop :=
  List.Forall₂ (fun ref graph => ∃ owner, store.get? ref = some { graph with owner }) refs graphs

namespace Workspace

variable {w u : Workspace} {base graphs : Store .graph Graph} {sets : Store .filterSet FilterSet}

/-- An ingredient may be replaced by its text. -/
theorem At.realizes_replaced (place : w.At graphs sets u) (ingredient : Ingredient) :
    Realizes (ingredient.text? w) (fun text a v => a = .text text ∧ w.At graphs sets v)
      ingredient.replaced u := by
  cases ingredient with
  | text s => exact ⟨.text s, u, rfl, rfl, place⟩
  | node ref =>
    refine (place.realizes_render ref).before ?_
    rintro _ text v ⟨rfl, place⟩
    exact ⟨.text text, v, rfl, rfl, place⟩
  | named cls =>
    obtain ⟨name, v, run, rfl, place⟩ := place.realizes_lookup cls
    exact ⟨_, v, bind_of_ok run, rfl, place⟩

theorem At.realizes_plan_replaced (place : w.At graphs sets u) (plan : Plan) :
    Realizes (plan.ingredients.mapM (Ingredient.text? w))
      (fun texts ready v => ready = { plan with ingredients := texts.map .text } ∧
        w.At graphs sets v) plan.replaced u := by
  have texts : Realizes (plan.ingredients.mapM (Ingredient.text? w))
      (fun texts results v => results = texts.map .text ∧ w.At graphs sets v)
      (plan.ingredients.mapM Ingredient.replaced) u :=
    .mapM (fun ingredient _ _ place => place.realizes_replaced ingredient) place
  refine texts.before ?_
  rintro texts _ v ⟨rfl, place⟩
  exact ⟨_, v, rfl, rfl, place⟩

theorem At.realizes_prepare (place : w.At graphs sets u) (step : Route × Plan) :
    Realizes (Route.prepared? w step) (fun ready a v => a = ready ∧ w.At graphs sets v)
      (Route.prepare step) u := by
  unfold Route.prepared? Route.prepare
  by_cases inAdvance : step.1.inAdvance = true
  · rw [if_pos inAdvance, if_pos inAdvance]
    refine .bind (place.realizes_plan_replaced step.2) ?_
    rintro texts _ v - ⟨rfl, place⟩
    exact .pure ⟨rfl, place⟩
  · rw [if_neg inAdvance, if_neg inAdvance]
    exact ⟨_, u, rfl, rfl, place⟩

/-- Graphs are built as planned, and the set holds them behind its others. -/
theorem At.realizes_buildAll {steps : List (Way × Plan)} (place : w.At base sets u)
    {set : Ref .filterSet} (there : (sets.get? set).isSome) :
    Realizes ((steps.map Prod.snd).mapM (Plan.drawn w))
      (fun drawn ref v => ref = set ∧ ∃ store refs, w.At store (holding sets set refs) v ∧
        store.Draws refs drawn ∧
        ∀ ref graph, base.get? ref = some graph → store.get? ref = some graph)
      (FilterSet.buildAll set steps) u := by
  induction steps generalizing base sets u with
  | nil =>
    refine .pure ⟨rfl, base, [], ?_, .nil, fun _ _ present => present⟩
    rwa [holding_nil]
  | cons step rest ih =>
    obtain ⟨way, plan⟩ := step
    rw [List.map_cons, List.mapM_cons]
    refine .bind (place.realizes_build there plan way) ?_
    rintro graph ref v - ⟨back, place⟩
    rw [back]
    have still : ((holding sets set [base.next]).get? set).isSome := by
      rwa [holding, Store.isSome_get?_modify]
    refine .value (ih place still) ?_
    rintro drawn ref t ⟨same, store, refs, place, draws, kept⟩
    rw [holding_holding] at place
    refine ⟨same, store, base.next :: refs, place, ?_, ?_⟩
    · exact .cons ⟨way.owner set, kept base.next _ (Store.get?_add_next base _)⟩ draws
    · intro other old present
      exact kept other old (Store.get?_add_of_some present)

end Workspace

/-! ## What is shown -/

/-- The text of a set of graphs as planned. -/
def Plan.text? (w : Workspace) (plans : List Plan) : Option String :=
  (plans.mapM (Plan.drawn w)).map fun graphs => ";".intercalate (graphs.map Graph.render)

namespace FilterSet

/-- The text of a set that is made. -/
def shown (made : Work (Ref .filterSet)) : Work String := do renderNow (← made)

/-- The option and the text of a set that is made. -/
def offered (made : Work (Ref .filterSet)) : Work (String × String) := do
  let set ← made
  let text ← renderNow set
  return ((← read set).option, text)

end FilterSet

/-- Without a split, a set shows its graphs. -/
theorem FilterSet.showing_unsplit {set : FilterSet} (unsplit : set.split = none)
    (output : Ref .graph → String) :
    set.showing output = ";".intercalate (set.graphs.map output) := by
  rw [showing, unsplit]
  cases set.graphs with
  | nil => rfl
  | cons => rfl

theorem Ingredient.mapM_text? (w : Workspace) (texts : List String) :
    (texts.map Ingredient.text).mapM (Ingredient.text? w) = some texts := by
  induction texts with
  | nil => rfl
  | cons text rest ih =>
    rw [List.map_cons, List.mapM_cons, ih]
    rfl

/-- A plan that is ready comes to the graph that was planned. -/
theorem Route.prepared?_drawn (w : Workspace) (step : Route × Plan) :
    ((Route.prepared? w step).bind fun ready => ready.2.drawn w) = step.2.drawn w := by
  unfold Route.prepared?
  split
  · cases had : step.2.ingredients.mapM (Ingredient.text? w) with
    | none => simp [Plan.drawn, Plan.filled, had]
    | some texts =>
      simp only [Option.bind_some, Plan.drawn, Plan.filled, had, Ingredient.mapM_text?]
      rfl
  · rfl

/-- Plans that are ready come to the graphs that were planned. -/
theorem Route.prepared?_mapM_drawn (w : Workspace) (steps : List (Route × Plan)) :
    ((steps.mapM (Route.prepared? w)).bind fun ready =>
      (ready.map Prod.snd).mapM (Plan.drawn w)) = (steps.map Prod.snd).mapM (Plan.drawn w) := by
  induction steps with
  | nil => rfl
  | cons step rest ih =>
    rw [List.mapM_cons, List.map_cons, List.mapM_cons, ← ih, ← Route.prepared?_drawn]
    cases Route.prepared? w step with
    | none => rfl
    | some ready =>
      cases rest.mapM (Route.prepared? w) with
      | none => simp
      | some others =>
        simp only [Option.bind_eq_bind, Option.bind_some, Option.pure_def, List.map_cons,
          List.mapM_cons]

theorem Store.Draws.outputs {w : Workspace} {refs : List (Ref .graph)} {graphs : List Graph}
    (draws : w.graphs.Draws refs graphs) :
    (∀ ref ∈ refs, (w.graphs.get? ref).isSome) ∧ refs.map w.output = graphs.map Graph.render := by
  induction draws with
  | nil => exact ⟨List.forall_mem_nil _, rfl⟩
  | cons first rest ih =>
    obtain ⟨owner, present⟩ := first
    obtain ⟨there, texts⟩ := ih
    refine ⟨List.forall_mem_cons.2 ⟨?_, there⟩, ?_⟩
    · rw [present]
      rfl
    · rw [List.map_cons, List.map_cons, texts, Workspace.output, present]
      rfl

namespace Workspace

variable {w u : Workspace}

/-- By any route, a set shows its graphs as planned. -/
theorem Shows.realizes_built (shows : w.Shows u) (option : String) (steps : List (Route × Plan)) :
    Realizes ((steps.map Prod.snd).mapM (Plan.drawn w))
      (fun graphs ref v => w.Shows v ∧
        (∃ set, v.sets.get? ref = some set ∧ set.option = (FilterSet.fresh option).option) ∧
        FilterSet.renderNow ref v = .ok (";".intercalate (graphs.map Graph.render)) v)
      (FilterSet.built option steps) u := by
  have ready : Realizes (steps.mapM (Route.prepared? w))
      (fun ready results v => results = ready.map id ∧ w.At u.graphs u.sets v)
      (steps.mapM Route.prepare) u :=
    .mapM (fun step _ _ place => place.realizes_prepare step) ⟨shows, rfl, rfl⟩
  rw [← Route.prepared?_mapM_drawn]
  refine ready.bind ?_
  rintro ready _ v - ⟨rfl, place⟩
  rw [List.map_id]
  let set := FilterSet.fresh option
  let filled : Workspace := { v with sets := u.sets.add set }
  have entered : FilterSet.enter set v = .ok u.sets.next filled := by
    simp only [filled, ← place.sets]
    rfl
  have here : w.At u.graphs (u.sets.add set) filled :=
    ⟨place.shows.onGraphs _ _, place.graphs, rfl⟩
  have there : ((u.sets.add set).get? u.sets.next).isSome := by
    rw [Store.get?_add_next]
    rfl
  refine .after entered ((here.realizes_buildAll there).mono ?_)
  rintro graphs _ t ⟨rfl, store, refs, place, draws, -⟩
  rw [← place.graphs] at draws
  obtain ⟨there, texts⟩ := draws.outputs
  have present : t.sets.get? u.sets.next = some { set with graphs := refs } := by
    rw [place.sets, holding, Store.modify_add_next, Store.get?_add_next]
    rfl
  refine ⟨place.shows, ⟨_, present, rfl⟩, ?_⟩
  rw [FilterSet.renderNow_apply present there, FilterSet.showing_unsplit rfl, texts]

/-- Building a set leaves all that is planned with its text. -/
theorem Shows.built (shows : w.Shows u) {option : String} {steps : List (Route × Plan)}
    {set : Ref .filterSet} {v : Workspace} (run : FilterSet.built option steps u = .ok set v) :
    w.Shows v := by
  obtain ⟨graphs, -, shows, -, -⟩ := (shows.realizes_built option steps).of_ok run
  exact shows

theorem Shows.toOption_shown (shows : w.Shows u) (option : String) (steps : List (Route × Plan)) :
    ((FilterSet.shown (FilterSet.built option steps)).outcome u).toOption =
      Plan.text? w (steps.map Prod.snd) := by
  have realizes : Realizes ((steps.map Prod.snd).mapM (Plan.drawn w))
      (fun graphs text v => text = ";".intercalate (graphs.map Graph.render) ∧ w.Shows v)
      (FilterSet.shown (FilterSet.built option steps)) u := by
    refine (shows.realizes_built option steps).before ?_
    rintro graphs set v ⟨shows, -, rendered⟩
    exact ⟨_, v, rendered, rfl, shows⟩
  exact realizes.toOption_outcome

theorem Shows.toOption_offered (shows : w.Shows u) (option : String)
    (steps : List (Route × Plan)) :
    ((FilterSet.offered (FilterSet.built option steps)).outcome u).toOption =
      (Plan.text? w (steps.map Prod.snd)).map fun text =>
        ((FilterSet.fresh option).option, text) := by
  have realizes : Realizes ((steps.map Prod.snd).mapM (Plan.drawn w))
      (fun graphs offer v => offer =
        ((FilterSet.fresh option).option, ";".intercalate (graphs.map Graph.render)) ∧ w.Shows v)
      (FilterSet.offered (FilterSet.built option steps)) u := by
    refine (shows.realizes_built option steps).before ?_
    rintro graphs ref v ⟨shows, ⟨set, present, same⟩, rendered⟩
    have read : FilterSet.read ref v = .ok set v := require_of_some present
    refine ⟨_, v, (bind_of_ok rendered).trans (bind_of_ok read), ?_, shows⟩
    rw [same]
  rw [realizes.toOption_outcome, Plan.text?, Option.map_map]
  rfl

end Workspace

end MediaCommand
