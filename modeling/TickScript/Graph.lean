import TickScript.Settings.Record

/-!
# Graphs

A graph is what an editor hands over for compilation: nodes with a kind name and free-form
settings, and edges between the ports of nodes.
-/

namespace TickScript

open TickScript.Settings

/-- A place on the canvas, which the compiler ignores. -/
structure Position where
  x : Binary64
  y : Binary64

/-- How a position is read and written. -/
def Position.record : Record Position where
  name := "Position"
  fields := [
    .required "x" .number (·.x) fun record x => { record with x },
    .required "y" .number (·.y) fun record y => { record with y }]
  blank := ⟨.zero, .zero⟩

/-- A node of a graph. -/
structure Graph.Node where
  id : String
  kind : String
  position : Option Position := none
  settings : Json.Value := .null

/-- How a node of a graph is read and written. -/
def Graph.Node.record : Record Graph.Node where
  name := "GraphNodeDefinition"
  fields := [
    .required "id" .text (·.id) fun record id => { record with id },
    .required "kind" .text (·.kind) fun record kind => { record with kind },
    .defaulted "position" (.optional Position.record.codec) (·.position)
      fun record position => { record with position },
    .defaulted "settings" .value (·.settings) fun record settings => { record with settings }]
  blank := { id := "", kind := "" }

/-- An edge between two ports. -/
structure Graph.Edge where
  source : String
  sourcePort : String
  target : String
  targetPort : String

namespace Graph.Edge

/-- How an edge is read and written. -/
def record : Record Graph.Edge where
  name := "GraphEdgeDefinition"
  fields := [
    .required "source" .text (·.source) fun record source => { record with source },
    .required "source_port" .text (·.sourcePort)
      fun record sourcePort => { record with sourcePort },
    .required "target" .text (·.target) fun record target => { record with target },
    .required "target_port" .text (·.targetPort)
      fun record targetPort => { record with targetPort }]
  blank := ⟨"", "", "", ""⟩

/-- The flow output of one node into another. -/
def flow (source target : String) : Edge := ⟨source, "flow", target, "flow"⟩

/-- A slot of one node that begins with another. -/
def slot (source slot target : String) : Edge := ⟨source, "slot:" ++ slot, target, "flow"⟩

/-- The value of one node as an input of another. -/
def data (source target input : String) : Edge := ⟨source, "data:value", target, "data:" ++ input⟩

end Graph.Edge

/-- A graph ready for compilation. -/
structure Graph where
  name : String
  nodes : List Graph.Node := []
  edges : List Graph.Edge := []

/-- How a graph is read and written. -/
def Graph.record : Record Graph where
  name := "GraphDefinition"
  fields := [
    .required "name" .text (·.name) fun record name => { record with name },
    .required "nodes" (.list Graph.Node.record.codec) (·.nodes)
      fun record nodes => { record with nodes },
    .required "edges" (.list Graph.Edge.record.codec) (·.edges)
      fun record edges => { record with edges }]
  blank := { name := "" }

end TickScript
