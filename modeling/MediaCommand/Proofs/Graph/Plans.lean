import MediaCommand.Proofs.Graph.Sharing
import MediaCommand.Proofs.Reference

/-!
# Plans of graphs

A plan says what a graph is to be made of: labels, and texts, nodes and classes. `Plan.drawn` is the
graph it comes to in a workspace. Looking at nodes on the way changes no text (`Workspace.Shows`),
so the graph under construction comes to what was planned in the beginning.
-/

namespace MediaCommand

open MediaCommand.Action

/-! ## What looks leave -/

/-- Tokens and names look the same, and each node is as it was or flushed with success. -/
structure Workspace.Shows (before after : Workspace) : Prop where
  tokens : before.tokens.Agrees after.tokens
  names : ∀ cls, after.names.view cls = before.names.view cls
  nodes : ∀ ref, after.nodes.get? ref = before.nodes.get? ref ∨
    ∃ node desk, before.nodes.get? ref = some node ∧
      Node.flush ⟨before.tokens, node⟩ = .ok () desk ∧ after.nodes.get? ref = some desk.node

/-- A workspace with some graphs and sets that shows what another does. -/
structure Workspace.At (w : Workspace) (graphs : Store .graph Graph)
    (sets : Store .filterSet FilterSet) (u : Workspace) : Prop where
  shows : w.Shows u
  graphs : u.graphs = graphs
  sets : u.sets = sets

namespace Workspace

variable {w u : Workspace} {graphs : Store .graph Graph} {sets : Store .filterSet FilterSet}

theorem Shows.same (w : Workspace) : w.Shows w := ⟨refl w.tokens, fun _ => rfl, fun _ => .inl rfl⟩

/-- What graphs and sets there are is another matter. -/
theorem Shows.onGraphs (shows : w.Shows u) (graphs : Store .graph Graph)
    (sets : Store .filterSet FilterSet) : w.Shows { u with graphs, sets } :=
  ⟨shows.tokens, shows.names, shows.nodes⟩

/-- Rendering a node leaves its flush. -/
theorem At.rendered (place : w.At graphs sets u) {ref : Ref .node} {node old : Node}
    {desk : Node.Desk} (present : w.nodes.get? ref = some node)
    (flushed : Node.flush ⟨w.tokens, node⟩ = .ok () desk) (there : u.nodes.get? ref = some old)
    {tokens : Tokens} (agree : u.tokens.Agrees tokens) (classes : List FilterClass) :
    w.At graphs sets { u with
      tokens
      names := u.names.settleAll classes
      nodes := u.nodes.put ref desk.node } where
  shows := by
    refine ⟨place.shows.tokens.trans agree, fun cls => ?_, fun other => ?_⟩
    · exact (FilterNames.view_settleAll _ _ _).trans (place.shows.names cls)
    · by_cases here : other = ref
      · subst here
        exact .inr ⟨node, desk, present, flushed, Store.get?_put_self there⟩
      · have same : (u.nodes.put ref desk.node).get? other = u.nodes.get? other :=
          Store.get?_put_other here
        rw [same]
        exact place.shows.nodes other
  graphs := place.graphs
  sets := place.sets

theorem render_absent {ref : Ref .node} (absent : w.nodes.get? ref = none) :
    Node.render ref w = .error .noObject w := by
  have missing : Node.read ref w = .error .noObject w := require_of_none absent
  exact bind_of_error (bind_of_error missing)

/-- A node whose flush comes to what it would have come to in the beginning shows the same text. -/
theorem At.realizes_render_flushed (place : w.At graphs sets u) {ref : Ref .node}
    {node old : Node} {desk other : Node.Desk} (present : w.nodes.get? ref = some node)
    (flushed : Node.flush ⟨w.tokens, node⟩ = .ok () desk) (there : u.nodes.get? ref = some old)
    (again : Node.flush ⟨u.tokens, old⟩ = .ok () other) (same : other.node = desk.node)
    (named : old.nameIn w.names = node.nameIn w.names) :
    Realizes ((Node.render ref).outcome w).toOption
      (fun text a v => a = text ∧ w.At graphs sets v) (Node.render ref) u := by
  have onward := (Node.settles_flush ⟨u.tokens, old⟩).1
  rw [after_of_ok again] at onward
  have name : old.nameIn u.names = node.nameIn w.names := by
    rw [← named, Node.nameIn, Node.nameIn, place.shows.names]
  rw [outcome_of_ok (Node.render_of_flush present flushed)]
  refine ⟨_, _, Node.render_of_flush there again, ?_, ?_⟩
  · rw [name, same]
  · rw [same]
    exact place.rendered present flushed there onward _

/-- A node is rendered as it was in the beginning. -/
theorem At.realizes_render (place : w.At graphs sets u) (ref : Ref .node) :
    Realizes ((Node.render ref).outcome w).toOption
      (fun text a v => a = text ∧ w.At graphs sets v) (Node.render ref) u := by
  rcases place.shows.nodes ref with same | ⟨node, desk, present, flushed, settled⟩
  · cases present : w.nodes.get? ref with
    | none =>
      rw [outcome_of_error (render_absent present)]
      exact ⟨_, _, render_absent (same.trans present)⟩
    | some node =>
      have there := same.trans present
      have alike : Node.Desk.Matches ⟨w.tokens, node⟩ ⟨u.tokens, node⟩ := ⟨place.shows.tokens, rfl⟩
      cases flushed : Node.flush ⟨w.tokens, node⟩ with
      | error failure desk =>
        obtain ⟨other, failed, -⟩ := Node.alike_flush.error alike flushed
        have one : Node.render ref w = .error failure _ :=
          bind_of_error (NodeCall.run_of_error present flushed)
        have two : Node.render ref u = .error failure _ :=
          bind_of_error (NodeCall.run_of_error there failed)
        rw [outcome_of_error one]
        exact ⟨_, _, two⟩
      | ok _ desk =>
        obtain ⟨other, again, -, sameNode⟩ := Node.alike_flush.ok alike flushed
        exact place.realizes_render_flushed present flushed there again sameNode.symm rfl
  · have still : Node.flush ⟨u.tokens, desk.node⟩ = .ok () ⟨u.tokens, desk.node⟩ :=
      NodeCall.flush_flushed (NodeCall.flushedTo_of_ok flushed).phase
    obtain ⟨own, cls⟩ := Node.named_of_flush flushed
    have name : desk.node.nameIn w.names = node.nameIn w.names := by
      rw [Node.nameIn, Node.nameIn, own, cls]
    exact place.realizes_render_flushed present flushed settled still rfl name

end Workspace

/-! ## Plans -/

theorem Tokens.looksUp_wrap (label : Value) : LooksUp (wrap label) := by
  rw [funext (wrap_eq label)]
  exact .bind (looksUp_normalize label) fun _ => .pure _

theorem Tokens.looksUp_wrapAll (labels : List Value) : LooksUp (wrapAll labels) := by
  rw [funext (wrapAll_eq labels)]
  exact .bind (.bind (looksUp_normalizeAll labels) fun _ => .pure _) fun _ => .pure _

/-- What a graph is made of: texts, nodes and classes of nodes. -/
inductive Ingredient where
  | text (s : String)
  | node (ref : Ref .node)
  | named (cls : FilterClass)

namespace Ingredient

def item : Ingredient → GraphItem
  | .text s => .text s
  | .node ref => .node ref
  | .named cls => .cls cls

/-- The text of an ingredient in a workspace, empty for a class without a name. A node that cannot
be rendered has none. -/
def text? (w : Workspace) : Ingredient → Option String
  | .text s => some s
  | .node ref => ((Node.render ref).outcome w).toOption
  | .named cls => some ((w.names.view cls).getD "")

/-- The text in place of the ingredient. -/
def replaced : Ingredient → Work Ingredient
  | .text s => return .text s
  | .node ref => do return .text (← Node.render ref)
  | .named cls => do return .text ((← Workspace.withNames (FilterNames.lookup cls)).getD "")

end Ingredient

/-- What a graph is to be: its input labels, its ingredients and its output label. -/
structure Plan where
  inputs : List Value
  ingredients : List Ingredient
  label : Value

namespace Plan

def items (plan : Plan) : List GraphItem := plan.ingredients.map Ingredient.item

/-- The output label of the plan in brackets. A missing or empty one is none. -/
def output? (w : Workspace) (plan : Plan) : Option (Option String) :=
  match plan.label with
  | .null | .text "" => some none
  | label => ((wrap label).outcome w.tokens).toOption.map some

theorem output?_silent {w : Workspace} {plan : Plan}
    (silent : plan.label = .null ∨ plan.label = .text "") : plan.output? w = some none := by
  unfold output?
  rcases silent with same | same
  · simp only [same]
  · simp only [same]

theorem output?_given {w : Workspace} {plan : Plan}
    (given : ¬(plan.label = .null ∨ plan.label = .text "")) :
    plan.output? w = ((wrap plan.label).outcome w.tokens).toOption.map some := by
  unfold output?
  split
  · next same => exact absurd (.inl same) given
  · next same => exact absurd (.inr same) given
  · rfl

/-- Adds the ingredients to a graph and names its output. -/
def fill (plan : Plan) (graph : Ref .graph) : Work Unit := do
  Graph.addItems graph plan.items
  Graph.setOutput graph plan.label

/-- A graph with input labels as it is filled by the plan. -/
def filled (w : Workspace) (plan : Plan) (inputs : String) : Option Graph := do
  let texts ← plan.ingredients.mapM (Ingredient.text? w)
  let output ← plan.output? w
  return ⟨inputs, texts.filter (· ≠ ""), output, none⟩

/-- The graph as planned, if all it is made of has a text. -/
def drawn (w : Workspace) (plan : Plan) : Option Graph := do
  plan.filled w (← ((wrapAll plan.inputs).outcome w.tokens).toOption)

end Plan

namespace Workspace

variable {w u : Workspace} {base graphs : Store .graph Graph} {sets : Store .filterSet FilterSet}

theorem At.realizes_lookup (place : w.At graphs sets u) (cls : FilterClass) :
    Realizes (some (w.names.view cls)) (fun name a v => a = name ∧ w.At graphs sets v)
      (withNames (FilterNames.lookup cls)) u := by
  refine ⟨u.names.view cls, { u with names := u.names.settle cls }, rfl, place.shows.names cls, ?_⟩
  refine ⟨⟨place.shows.tokens, fun other => ?_, place.shows.nodes⟩, place.graphs, place.sets⟩
  exact (FilterNames.view_settle _ _ _).trans (place.shows.names other)

/-- An ingredient is expressed by its text in the beginning. -/
theorem At.realizes_expressionOf (place : w.At graphs sets u) (ingredient : Ingredient) :
    Realizes (ingredient.text? w) (fun text a v => a.getD "" = text ∧ w.At graphs sets v)
      (Graph.expressionOf ingredient.item) u := by
  cases ingredient with
  | text s => exact ⟨some s, u, rfl, rfl, place⟩
  | node ref =>
    exact (place.realizes_render ref).before fun text a v here => ⟨some a, v, rfl, here⟩
  | named cls =>
    obtain ⟨name, v, run, same, place⟩ := place.realizes_lookup cls
    exact ⟨name, v, run, congrArg (·.getD "") same, place⟩

theorem At.realizes_withTokens {α : Type} (place : w.At graphs sets u) {action : Action Tokens α}
    (looks : Tokens.LooksUp action) :
    Realizes (action.outcome w.tokens).toOption (fun value a v => a = value ∧ w.At graphs sets v)
      (withTokens action) u := by
  have same := (looks.alike place.shows.tokens).1
  have agree := looks.respects u.tokens
  rw [same]
  cases run : action u.tokens with
  | error failure tokens =>
    rw [outcome_of_error run]
    exact ⟨failure, _, withTokens_of_error run⟩
  | ok a tokens =>
    rw [after_of_ok run] at agree
    rw [outcome_of_ok run]
    refine ⟨a, _, withTokens_of_ok run, rfl, ?_⟩
    exact ⟨⟨place.shows.tokens.trans agree, place.shows.names, place.shows.nodes⟩, place.graphs,
      place.sets⟩

/-- The graph that was made last can be changed. -/
theorem At.change {graph : Graph} (place : w.At (base.add graph) sets u) (f : Graph → Graph) :
    ∃ v, Graph.change base.next f u = .ok () v ∧ w.At (base.add (f graph)) sets v := by
  have present : u.graphs.get? base.next = some graph := by
    rw [place.graphs]
    exact Store.get?_add_next base graph
  refine ⟨_, Graph.change_apply present f, place.shows.onGraphs _ _, ?_, place.sets⟩
  rw [place.graphs, Store.modify_add_next]

/-- The ingredients of the graph that was made last are added in turn. -/
theorem At.realizes_addItems {graph : Graph} (ingredients : List Ingredient)
    (place : w.At (base.add graph) sets u) :
    Realizes (ingredients.mapM (Ingredient.text? w))
      (fun texts _ v => w.At (base.add
        { graph with nodes := graph.nodes ++ texts.filter (· ≠ "") }) sets v)
      (Graph.addItems base.next (ingredients.map Ingredient.item)) u := by
  induction ingredients generalizing graph u with
  | nil =>
    refine .pure ?_
    simpa using place
  | cons ingredient rest ih =>
    rw [List.mapM_cons, List.map_cons, Graph.addItems]
    refine .bind (place.realizes_expressionOf ingredient) ?_
    rintro text expression v - ⟨rfl, place⟩
    dsimp only
    by_cases silent : expression.getD "" = ""
    · rw [if_neg (not_not.2 silent), silent]
      refine .value (ih place) fun texts _ t there => ?_
      simpa using there
    · obtain ⟨t, changed, place⟩ :=
        place.change fun graph => { graph with nodes := graph.nodes ++ [expression.getD ""] }
      rw [if_pos silent]
      refine .after changed (.value (ih place) fun texts _ t there => ?_)
      simpa [silent] using there

/-- The inputs of the graph that was made last are set. -/
theorem At.realizes_setInputs {graph : Graph} (place : w.At (base.add graph) sets u)
    (labels : List Value) :
    Realizes ((wrapAll labels).outcome w.tokens).toOption
      (fun inputs _ v => w.At (base.add { graph with inputs }) sets v)
      (Graph.setInputs base.next labels) u := by
  refine (place.realizes_withTokens (Tokens.looksUp_wrapAll labels)).before ?_
  rintro _ inputs t ⟨rfl, place⟩
  obtain ⟨v, changed, place⟩ := place.change fun graph => { graph with inputs }
  exact ⟨(), v, changed, place⟩

/-- The output of the graph that was made last is named, if the plan names one. -/
theorem At.realizes_setOutput {graph : Graph} (place : w.At (base.add graph) sets u)
    (plan : Plan) :
    Realizes (plan.output? w)
      (fun output _ v => w.At (base.add { graph with output := output.or graph.output }) sets v)
      (Graph.setOutput base.next plan.label) u := by
  by_cases silent : plan.label = .null ∨ plan.label = .text ""
  · have ignored : Graph.setOutput base.next plan.label = pure () := by
      rcases silent with same | same <;> rw [same] <;> rfl
    rw [Plan.output?_silent silent, ignored]
    exact .pure place
  · obtain ⟨given, nonempty⟩ := not_or.1 silent
    rw [Graph.setOutput.eq_3 _ _ given nonempty, Plan.output?_given silent, Option.map_eq_bind]
    refine .value ((place.realizes_withTokens (Tokens.looksUp_wrap plan.label)).before ?_)
      fun output _ v there => there
    rintro _ output t ⟨rfl, place⟩
    obtain ⟨v, changed, place⟩ := place.change fun graph => { graph with output := some output }
    exact ⟨(), v, changed, place⟩

/-- The graph that was made last is filled as planned. -/
theorem At.realizes_fill {owner : Option (Ref .filterSet)} {inputs : String} (plan : Plan)
    (place : w.At (base.add { Graph.fresh owner with inputs }) sets u) :
    Realizes (plan.filled w inputs) (fun graph _ v => w.At (base.add { graph with owner }) sets v)
      (plan.fill base.next) u := by
  refine .bind (place.realizes_addItems plan.ingredients) ?_
  rintro texts _ t - place
  refine .value (place.realizes_setOutput plan) fun output _ v there => ?_
  simpa [Graph.fresh] using there

end Workspace

end MediaCommand
