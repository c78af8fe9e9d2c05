import MediaCommand.Graph.Workspace
import MediaCommand.Proofs.Action
import MediaCommand.Proofs.Graph.Grammar
import Mathlib.Data.List.Forall2

/-!
# What calls say about graphs and sets

An `Account` keeps what calls have said: of each graph its events in order, of each set the labels
of every split and the graphs it holds. `Account.statements` reads the statements of a set off
these, and `GraphCall.accountOf` is the account of a run of calls. `Account.Depicts` says that the
graphs and sets of a workspace are drawn as an account tells.
-/

namespace MediaCommand

open MediaCommand.Action (Respects)

/-! ## Accounts -/

/-- What a call says about a graph. -/
inductive GraphEvent where
  | inputs (labels : List String)
  | node (expression : String)
  | output (label : String)

namespace GraphEvent

def inputs? : GraphEvent → Option (List String)
  | .inputs labels => some labels
  | _ => none

def expression? : GraphEvent → Option String
  | .node expression => some expression
  | _ => none

def label? : GraphEvent → Option String
  | .output label => some label
  | _ => none

end GraphEvent

/-- The statement of a graph: its last input labels, its expressions in order but for empty ones,
and its last output label. -/
def Statement.ofEvents (events : List GraphEvent) : Statement where
  inputs := (events.filterMap GraphEvent.inputs?).getLast?.getD []
  nodes := (events.filterMap GraphEvent.expression?).filter (· ≠ "")
  outputs := (events.filterMap GraphEvent.label?).getLast?.toList

namespace Statement

theorem ofEvents_inputs (events : List GraphEvent) (labels : List String) :
    ofEvents (events ++ [.inputs labels]) = { ofEvents events with inputs := labels } := by
  simp [ofEvents, GraphEvent.inputs?, GraphEvent.expression?, GraphEvent.label?]

theorem ofEvents_node (events : List GraphEvent) {expression : String}
    (nonempty : expression ≠ "") :
    ofEvents (events ++ [.node expression]) =
      { ofEvents events with nodes := (ofEvents events).nodes ++ [expression] } := by
  simp [ofEvents, GraphEvent.inputs?, GraphEvent.expression?, GraphEvent.label?, nonempty]

theorem ofEvents_emptyNode (events : List GraphEvent) :
    ofEvents (events ++ [.node ""]) = ofEvents events := by
  simp [ofEvents, GraphEvent.inputs?, GraphEvent.expression?, GraphEvent.label?]

theorem ofEvents_output (events : List GraphEvent) (label : String) :
    ofEvents (events ++ [.output label]) = { ofEvents events with outputs := [label] } := by
  simp [ofEvents, GraphEvent.inputs?, GraphEvent.expression?, GraphEvent.label?]

theorem ofEvents_nodes (events : List GraphEvent) :
    ∀ node ∈ (ofEvents events).nodes, node ≠ "" := by
  simp [ofEvents]

end Statement

/-- The statement of a split: the input goes to labels. -/
def Statement.ofSplit (labels : List String) : Statement := ⟨[], [Split.filterName], labels⟩

/-- What calls have said about a set: the labels of each split, and the graphs it holds. -/
structure SetAccount where
  splits : List (List String)
  graphs : List (Ref .graph)

/-- What calls have said about all graphs and sets. -/
structure Account where
  graphs : Store .graph (List GraphEvent)
  sets : Store .filterSet SetAccount

/-- The store after changing the object behind a reference, if there is one. -/
def Store.modify {κ : ObjectKind} {α : Type} (store : Store κ α) (ref : Ref κ) (f : α → α) :
    Store κ α :=
  ⟨store.cells.modify ref.index f⟩

namespace Account

def empty : Account := ⟨.empty, .empty⟩

/-- A new graph, with what has been said about it. -/
def newGraph (account : Account) (events : List GraphEvent) : Account :=
  { account with graphs := account.graphs.add events }

def newSet (account : Account) : Account := { account with sets := account.sets.add ⟨[], []⟩ }

def say (account : Account) (ref : Ref .graph) (events : List GraphEvent) : Account :=
  { account with graphs := account.graphs.modify ref (· ++ events) }

def split (account : Account) (ref : Ref .filterSet) (labels : List String) : Account :=
  { account with sets := account.sets.modify ref fun set =>
      { set with splits := set.splits ++ [labels] } }

def hold (account : Account) (ref : Ref .filterSet) (graph : Ref .graph) : Account :=
  { account with sets := account.sets.modify ref fun set =>
      { set with graphs := set.graphs ++ [graph] } }

/-- The statement of a graph. -/
def statement (account : Account) (ref : Ref .graph) : Statement :=
  .ofEvents ((account.graphs.get? ref).getD [])

/-- The statements of a set: that of the last split, if there was one, and those of the graphs. -/
def statements (account : Account) (set : SetAccount) : List Statement :=
  (set.splits.getLast?.map Statement.ofSplit).toList ++ set.graphs.map account.statement

end Account

/-! ## Calls -/

/-- Graphs and sets as they were. -/
def Workspace.SameGraphs (before after : Workspace) : Prop :=
  after.graphs = before.graphs ∧ after.sets = before.sets

instance : IsPreorder Workspace Workspace.SameGraphs where
  refl _ := ⟨rfl, rfl⟩
  trans _ _ _ first second := ⟨second.1.trans first.1, second.2.trans first.2⟩

/-- A call that makes or changes graphs or sets. `elsewhere` is anything else that goes on in the
workspace. -/
inductive GraphCall where
  | graph (owner : Option (Ref .filterSet))
  | stream (labels : List Value)
  | append (items : List GraphItem)
  | inputs (ref : Ref .graph) (labels : List Value)
  | add (ref : Ref .graph) (items : List GraphItem)
  | output (ref : Ref .graph) (label : Value)
  | set (option : Value)
  | define (option : Value)
  | split (ref : Ref .filterSet) (labels : List Value)
  | hold (ref : Ref .filterSet) (items : List GraphItem)
  | startFrom (ref : Ref .filterSet) (labels : List Value)
  | start (ref : Ref .filterSet) (items : List GraphItem)
  | elsewhere (action : Work Unit) (apart : Respects Workspace.SameGraphs action)

/-- The texts of the labels that have one. -/
def labelTexts (labels : List Value) : Action Tokens (List String) := do
  return (← normalizeAll labels).filterMap id

/-- The expressions that items add to a graph in turn, up to the first that cannot be had. -/
def expressions (ref : Ref .graph) : List GraphItem → Workspace → List String
  | [], _ => []
  | item :: rest, w =>
    match Graph.expressionOf item w with
    | .ok text _ => text.getD "" :: expressions ref rest ((Graph.addItems ref [item]).after w)
    | .error _ _ => []

namespace GraphEvent

def ofInputs (labels : List Value) (w : Workspace) : List GraphEvent :=
  match labelTexts labels w.tokens with
  | .ok texts _ => [.inputs texts]
  | .error _ _ => []

def ofItems (ref : Ref .graph) (items : List GraphItem) (w : Workspace) : List GraphEvent :=
  (expressions ref items w).map .node

/-- A missing or empty label says nothing. -/
def ofLabel (label : Value) (w : Workspace) : List GraphEvent :=
  match label with
  | .null | .text "" => []
  | label => match normalize label w.tokens with
    | .ok (some text) _ => [.output text]
    | _ => []

end GraphEvent

namespace GraphCall

/-- Makes a call. -/
def perform : GraphCall → Work Unit
  | .graph owner => do let _ ← Graph.enter (.fresh owner)
  | .stream labels => do let _ ← Graph.ofInputs none labels
  | .append items => do let _ ← Graph.ofItems none items
  | .inputs ref labels => Graph.setInputs ref labels
  | .add ref items => Graph.addItems ref items
  | .output ref label => Graph.setOutput ref label
  | .set option => do let _ ← FilterSet.ofOption option
  | .define option => do let _ ← FilterSet.define option
  | .split ref labels => FilterSet.setSplit ref labels
  | .hold ref items => FilterSet.addItems ref items
  | .startFrom ref labels => do let _ ← FilterSet.startFrom ref labels
  | .start ref items => do let _ ← FilterSet.start ref items
  | .elsewhere action _ => action

/-- The account after an action that gives rise to more when it succeeds. -/
def upon {α : Type} (action : Work α) (w : Workspace) (more : α → Account → Account)
    (account : Account) : Account :=
  match action w with
  | .ok a _ => more a account
  | .error _ _ => account

/-- A new graph of items, with its owner. -/
def itemsSaid (owner : Option (Ref .filterSet)) (items : List GraphItem) (w : Workspace) :
    List GraphEvent :=
  GraphEvent.ofItems w.graphs.next items ((Graph.enter (.fresh owner)).after w)

/-- The account after a call in a workspace. A set holds a new graph once that is complete. -/
def account (call : GraphCall) (w : Workspace) (known : Account) : Account :=
  match call with
  | .graph _ => known.newGraph []
  | .stream labels => known.newGraph (GraphEvent.ofInputs labels w)
  | .append items => known.newGraph (itemsSaid none items w)
  | .inputs ref labels => known.say ref (GraphEvent.ofInputs labels w)
  | .add ref items => known.say ref (GraphEvent.ofItems ref items w)
  | .output ref label => known.say ref (GraphEvent.ofLabel label w)
  | .set option => upon (FilterSet.ofOption option) w (fun _ => Account.newSet) known
  | .define option => upon (FilterSet.define option) w (fun _ => Account.newSet) known
  | .split _ [] => known
  | .split ref labels =>
    upon (Workspace.withTokens (labelTexts labels)) w (fun texts known => known.split ref texts)
      known
  | .hold ref [.graph held] => known.hold ref held
  | .hold _ [.nothing] => known
  | .hold ref items =>
    upon (Graph.ofItems none items) w (fun made known => known.hold ref made)
      (known.newGraph (itemsSaid none items w))
  | .startFrom ref labels =>
    upon (Graph.ofInputs (some ref) labels) w (fun made known => known.hold ref made)
      (known.newGraph (GraphEvent.ofInputs labels w))
  | .start ref items =>
    upon (Graph.ofItems (some ref) items) w (fun made known => known.hold ref made)
      (known.newGraph (itemsSaid (some ref) items w))
  | .elsewhere _ _ => known

/-- The workspace after calls in turn, those that fail included. -/
def afterCalls (calls : List GraphCall) (w : Workspace) : Workspace :=
  calls.foldl (fun w call => call.perform.after w) w

/-- The account of calls in turn. -/
def accountOf : List GraphCall → Workspace → Account → Account
  | [], _, known => known
  | call :: rest, w, known => accountOf rest (call.perform.after w) (call.account w known)

end GraphCall

/-! ## Graphs and sets as their accounts tell -/

/-- A graph is drawn as events tell. -/
def Graph.Draws (events : List GraphEvent) (graph : Graph) : Prop :=
  graph.inputs = Statement.bracketed (Statement.ofEvents events).inputs ∧
    graph.nodes = (Statement.ofEvents events).nodes ∧
    graph.outputLabel = Statement.bracketed (Statement.ofEvents events).outputs

/-- A set is drawn as its account tells. -/
def FilterSet.Draws (told : SetAccount) (set : FilterSet) : Prop :=
  set.split = told.splits.getLast?.map (fun labels => ⟨"", Statement.bracketed labels⟩) ∧
    set.graphs = told.graphs

/-- All graphs and sets are drawn as an account tells. -/
structure Account.Depicts (account : Account) (w : Workspace) : Prop where
  graphs : List.Forall₂ Graph.Draws account.graphs.cells w.graphs.cells
  sets : List.Forall₂ FilterSet.Draws account.sets.cells w.sets.cells

namespace Graph

theorem Draws.inputs {events : List GraphEvent} {graph : Graph} (draws : Draws events graph)
    (labels : List String) :
    Draws (events ++ [.inputs labels]) { graph with inputs := Statement.bracketed labels } := by
  rw [Draws, Statement.ofEvents_inputs]
  exact ⟨rfl, draws.2⟩

theorem Draws.node {events : List GraphEvent} {graph : Graph} (draws : Draws events graph)
    {expression : String} (nonempty : expression ≠ "") :
    Draws (events ++ [.node expression]) { graph with nodes := graph.nodes ++ [expression] } := by
  rw [Draws, Statement.ofEvents_node events nonempty]
  exact ⟨draws.1, congrArg (· ++ [expression]) draws.2.1, draws.2.2⟩

theorem Draws.emptyNode {events : List GraphEvent} {graph : Graph} (draws : Draws events graph) :
    Draws (events ++ [.node ""]) graph := by
  rw [Draws, Statement.ofEvents_emptyNode]
  exact draws

theorem Draws.output {events : List GraphEvent} {graph : Graph} (draws : Draws events graph)
    (label : String) :
    Draws (events ++ [.output label]) { graph with output := some ("[" ++ label ++ "]") } := by
  rw [Draws, Statement.ofEvents_output]
  refine ⟨draws.1, draws.2.1, ?_⟩
  simp [Graph.outputLabel, Statement.bracketed]

theorem Draws.fresh (owner : Option (Ref .filterSet)) : Draws [] (Graph.fresh owner) :=
  ⟨rfl, rfl, rfl⟩

/-- What is drawn is rendered as the statement. -/
theorem Draws.render {events : List GraphEvent} {graph : Graph} (draws : Draws events graph) :
    graph.render = (Statement.ofEvents events).render := by
  obtain ⟨inputs, nodes, output⟩ := draws
  rw [Graph.render, Graph.chain, inputs, nodes, output, Statement.render]

end Graph

end MediaCommand
