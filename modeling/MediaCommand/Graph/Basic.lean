import MediaCommand.Store

/-!
# Filter graphs

A graph is one statement of the filter language: input labels, node expressions between commas,
and an output label. A filter set holds graphs by reference, so that a graph changed later is
rendered as it then is. A split statement fans one input out to several labels.
-/

namespace MediaCommand

/-- A split statement. Labels are kept in brackets. -/
structure Split where
  source : String
  labels : String
  deriving DecidableEq, Repr

/-- The filter that a split statement names. -/
def Split.filterName : String := "split"

def Split.render (split : Split) : String := split.source ++ Split.filterName ++ split.labels

/-- A graph. Labels are kept in brackets; `owner` is the set that created it. -/
structure Graph where
  inputs : String
  nodes : List String
  output : Option String
  owner : Option (Ref .filterSet)
  deriving DecidableEq, Repr

namespace Graph

def fresh (owner : Option (Ref .filterSet)) : Graph := ⟨"", [], none, owner⟩

/-- The output label in brackets, empty when there is none. -/
def outputLabel (graph : Graph) : String := graph.output.getD ""

/-- The statement without its output label. -/
def chain (graph : Graph) : String := graph.inputs ++ ",".intercalate graph.nodes

/-- The whole statement. -/
def render (graph : Graph) : String := graph.chain ++ graph.outputLabel

end Graph

/-- The graphs of one filter option, behind an optional split statement. -/
structure FilterSet where
  option : String
  split : Option Split
  graphs : List (Ref .graph)
  deriving DecidableEq, Repr

namespace FilterSet

/-- The option of graphs with one input and one output. -/
def simpleOption : String := "vf"

/-- The option of graphs with any number of inputs and outputs. -/
def complexOption : String := "filter_complex"

/-- A set for an option, given with or without its dashes. -/
def fresh (option : String) : FilterSet :=
  ⟨String.ofList (option.toList.dropWhile (· == '-')), none, []⟩

/-- The statements of the set, given the graphs behind its references. -/
def statements (set : FilterSet) (graphs : List Graph) : List String :=
  (set.split.map Split.render).toList ++ graphs.map Graph.render

/-- The text of the option's value. Without a graph there is none. -/
def render (set : FilterSet) (graphs : List Graph) : String :=
  if graphs.isEmpty then "" else ";".intercalate (set.statements graphs)

end FilterSet

end MediaCommand
