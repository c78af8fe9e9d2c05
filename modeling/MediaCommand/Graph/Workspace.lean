import MediaCommand.Filter.Names
import MediaCommand.Filter.Build
import MediaCommand.Graph.Basic

/-!
# The workspace

Nodes, graphs and filter sets under construction, with the registered tokens and filter names.
A node enters a graph as the text it has at that moment; a graph enters a set by reference.
-/

namespace MediaCommand

/-- All that building filter expressions works on. -/
structure Workspace where
  tokens : Tokens
  names : FilterNames
  nodes : Store .node Node
  graphs : Store .graph Graph
  splits : Store .split Split
  sets : Store .filterSet FilterSet

/-- An operation in the workspace. -/
abbrev Work (α : Type) := Action Workspace α

namespace Workspace

def initial : Workspace := ⟨.initial, .initial, .empty, .empty, .empty, .empty⟩

/-- Runs a lookup of tokens. -/
def withTokens {α : Type} (action : Action Tokens α) : Work α :=
  Action.within Workspace.tokens (fun tokens w => { w with tokens }) action

/-- Runs a lookup of filter names. -/
def withNames {α : Type} (action : Action FilterNames α) : Work α :=
  Action.within Workspace.names (fun names w => { w with names }) action

end Workspace

open Workspace (withTokens withNames)

/-! ## Nodes -/

namespace Node

/-- Adds a node to the workspace. -/
def enter (build : Action Tokens Node) : Work (Ref .node) := do
  let node ← Workspace.withTokens build
  let w ← get
  MonadState.set { w with nodes := w.nodes.add node }
  return w.nodes.next

def read (ref : Ref .node) : Work Node := do requireObject ((← get).nodes.get? ref)

/-- Runs an operation on a node of the workspace. -/
def run {α : Type} (ref : Ref .node) (edit : Edit α) : Work α := do
  let node ← read ref
  Action.within (fun w => ⟨w.tokens, node⟩)
    (fun desk w => { w with tokens := desk.tokens, nodes := w.nodes.put ref desk.node }) edit

/-- The filter name of a node: its own, or that of its class. -/
def filterName (node : Node) : Work (Option String) :=
  match node.ownName with
  | some name => return name
  | none => withNames (FilterNames.lookup node.cls)

/-- The text of a node, after the base arguments are written. -/
def render (ref : Ref .node) : Work String := do
  run ref flush
  let node ← read ref
  return node.expression (← node.filterName)

/-- A node for messages: its class and its filter name. -/
def literal (ref : Ref .node) : Work String := do
  let node ← read ref
  let name := match ← node.filterName with
    | some name => quoted name
    | none => "None"
  return "<" ++ node.cls.name ++ " " ++ name ++ ">"

end Node

/-! ## Graphs -/

/-- What may be added to a graph. -/
inductive GraphItem where
  | nothing
  | text (s : String)
  | node (ref : Ref .node)
  | graph (ref : Ref .graph)
  | split (ref : Ref .split)
  | filterSet (ref : Ref .filterSet)
  /-- A class stands for its filter name. -/
  | cls (cls : FilterClass)
  /-- Anything else, by its kind. -/
  | other (kind : String)

namespace Graph

def read (ref : Ref .graph) : Work Graph := do requireObject ((← get).graphs.get? ref)

def enter (graph : Graph) : Work (Ref .graph) := do
  let w ← get
  set { w with graphs := w.graphs.add graph }
  return w.graphs.next

def change (ref : Ref .graph) (f : Graph → Graph) : Work Unit := do
  let graph ← read ref
  modify fun w => { w with graphs := w.graphs.put ref (f graph) }

/-- Sets the input labels. -/
def setInputs (ref : Ref .graph) (labels : List Value) : Work Unit := do
  let inputs ← withTokens (wrapAll labels)
  change ref ({ · with inputs })

/-- Names the output. A missing or empty label is ignored. -/
def setOutput (ref : Ref .graph) (label : Value) : Work Unit := do
  match label with
  | .null | .text "" => return
  | label =>
    let output ← withTokens (wrap label)
    change ref ({ · with output := some output })

end Graph

namespace FilterSet

def read (ref : Ref .filterSet) : Work FilterSet := do requireObject ((← get).sets.get? ref)

/-- The graphs of a set, as they are now. -/
def currentGraphs : List (Ref .graph) → Work (List Graph)
  | [] => return []
  | ref :: rest => do
    let graph ← Graph.read ref
    return graph :: (← currentGraphs rest)

/-- The text of a set, as its graphs are now. -/
def renderNow (ref : Ref .filterSet) : Work String := do
  let filterSet ← read ref
  return filterSet.render (← currentGraphs filterSet.graphs)

end FilterSet

namespace Graph

/-- The expression that an item adds to a graph, if it adds one. -/
def expressionOf : GraphItem → Work (Option String)
  | .nothing => return none
  | .text s => return some s
  | .node ref => some <$> Node.render ref
  | .graph ref => return some (← read ref).render
  | .split ref => do return some (← requireObject ((← get).splits.get? ref)).render
  | .filterSet ref => some <$> FilterSet.renderNow ref
  | .cls cls => withNames (FilterNames.lookup cls)
  | .other kind => throw (.noAttribute kind "render")

/-- Adds items in turn. An item without a text, or with an empty one, adds nothing. -/
def addItems (ref : Ref .graph) : List GraphItem → Work Unit
  | [] => return
  | item :: rest => do
    let text := (← expressionOf item).getD ""
    if text ≠ "" then change ref fun graph => { graph with nodes := graph.nodes ++ [text] }
    addItems ref rest

/-- A new graph with input labels. -/
def ofInputs (owner : Option (Ref .filterSet)) (labels : List Value) : Work (Ref .graph) := do
  let ref ← enter (fresh owner)
  setInputs ref labels
  return ref

/-- A new graph with items. -/
def ofItems (owner : Option (Ref .filterSet)) (items : List GraphItem) : Work (Ref .graph) := do
  let ref ← enter (fresh owner)
  addItems ref items
  return ref

/-- A graph for messages. -/
def literal (graph : Graph) : String := "<Graph " ++ quoted graph.render ++ ">"

/-- The set that created a graph. -/
def owningSet (ref : Ref .graph) : Work (Ref .filterSet) := do
  match (← read ref).owner with
  | some owner => return owner
  | none => throw (.contract .graphWithoutSet)

end Graph

/-! ## Splits -/

namespace Split

/-- The split of an input to labels. -/
def toLabels (split : Split) (labels : List Value) : Action Tokens Split := do
  return { split with labels := ← wrapAll labels }

def ofSource (source : Value) : Action Tokens Split := do return ⟨← wrap source, ""⟩

def enter (source : Value) : Work (Ref .split) := do
  let split ← withTokens (ofSource source)
  let w ← get
  set { w with splits := w.splits.add split }
  return w.splits.next

def read (ref : Ref .split) : Work Split := do requireObject ((← get).splits.get? ref)

/-- Sets the output labels. -/
def setLabels (ref : Ref .split) (labels : List Value) : Work Unit := do
  let split ← withTokens (toLabels (← read ref) labels)
  modify fun w => { w with splits := w.splits.put ref split }

end Split

/-! ## Filter sets -/

namespace FilterSet

def enter (filterSet : FilterSet) : Work (Ref .filterSet) := do
  let w ← get
  set { w with sets := w.sets.add filterSet }
  return w.sets.next

/-- A set for an option, which must be a text. -/
def ofOption : Value → Work (Ref .filterSet)
  | .text option => enter (fresh option)
  | option => throw (.noAttribute option.kind "lstrip")

/-- A set for an option that the caller names and that may not be empty. -/
def define (option : Value) : Work (Ref .filterSet) :=
  if option.isTruthy then ofOption option else throw (.contract .emptyOption)

def change (ref : Ref .filterSet) (f : FilterSet → FilterSet) : Work Unit := do
  let filterSet ← read ref
  modify fun w => { w with sets := w.sets.put ref (f filterSet) }

/-- A set for messages. -/
def literal (ref : Ref .filterSet) : Work String := do
  let text ← renderNow ref
  return "<FilterSet -" ++ (← read ref).option ++ " " ++ quoted text ++ ">"

/-- Adds a graph by reference. -/
def addGraph (ref : Ref .filterSet) (graph : Ref .graph) : Work Unit :=
  change ref fun filterSet => { filterSet with graphs := filterSet.graphs ++ [graph] }

/-- Puts a split of the input in front of the graphs. -/
def setSplit (ref : Ref .filterSet) (labels : List Value) : Work Unit := do
  if labels.isEmpty then throw (.contract .emptySplit)
  let split ← withTokens (Split.toLabels ⟨"", ""⟩ labels)
  change ref ({ · with split := some split })

/-- Adds one graph as it is, or a new graph of the items. -/
def addItems (ref : Ref .filterSet) : List GraphItem → Work Unit
  | [.graph graph] => addGraph ref graph
  | [.nothing] => throw (.contract .nullGraph)
  | items => do
    let graph ← Graph.ofItems none items
    addGraph ref graph

/-- Starts a graph that reads from labels. -/
def startFrom (ref : Ref .filterSet) (labels : List Value) : Work (Ref .graph) := do
  let graph ← Graph.ofInputs (some ref) labels
  addGraph ref graph
  return graph

/-- Starts a graph of items. -/
def start (ref : Ref .filterSet) (items : List GraphItem) : Work (Ref .graph) := do
  let graph ← Graph.ofItems (some ref) items
  addGraph ref graph
  return graph

end FilterSet

end MediaCommand
