import TickScript.Compiler
import TickScript.Settings.TextRecord

/-!
# Editor snapshots

A snapshot is a graph as the editor saves it. `Snapshot.ofText` reads one, `Snapshot.render` writes
it, and `Snapshot.toGraph` turns it into a graph for the compiler.
-/

namespace TickScript

open TickScript.Settings

/-- A node on the canvas. -/
structure Snapshot.Node where
  id : String
  type : String
  position : Option Position := none
  data : Json.Value := .null

/-- An edge on the canvas. A handle that is not named is the flow. -/
structure Snapshot.Edge where
  source : String
  sourceHandle : Option String := none
  target : String
  targetHandle : Option String := none

/-- A graph as the editor saves it. -/
structure Snapshot where
  name : String := ""
  nodes : List Snapshot.Node := []
  edges : List Snapshot.Edge := []

namespace Snapshot

/-- How a position is read from a text. -/
def positionRecord : TextRecord Position where
  name := "Position"
  fields := [
    .required "x" .number fun record x => { record with x },
    .required "y" .number fun record y => { record with y }]
  blank := ⟨.zero, .zero⟩

/-- How a node is read from a text. -/
def Node.textRecord : TextRecord Node where
  name := "UiNode"
  fields := [
    .required "id" .text fun record id => { record with id },
    .required "type" .text (fun record type => { record with type }) ["kind"],
    .defaulted "position" (.optional positionRecord.reading)
      fun record position => { record with position },
    .defaulted "data" .value fun record data => { record with data }]
  blank := { id := "", type := "" }

/-- How an edge is read from a text. -/
def Edge.textRecord : TextRecord Edge where
  name := "UiEdge"
  fields := [
    .required "source" .text fun record source => { record with source },
    .defaulted "source_handle" (.optional .text)
      (fun record sourceHandle => { record with sourceHandle }) ["sourceHandle"],
    .required "target" .text fun record target => { record with target },
    .defaulted "target_handle" (.optional .text)
      (fun record targetHandle => { record with targetHandle }) ["targetHandle"]]
  blank := { source := "", target := "" }

/-- How a snapshot is read from a text. -/
def textRecord : TextRecord Snapshot where
  name := "UiGraph"
  fields := [
    .defaulted "name" .text fun record name => { record with name },
    .required "nodes" (.list Node.textRecord.reading) fun record nodes => { record with nodes },
    .defaulted "edges" (.list Edge.textRecord.reading) fun record edges => { record with edges }]
  blank := {}

/-- The snapshot of a text. -/
def ofText (text : String) : Except Failure Snapshot := do
  let (draft, rest) := Json.Draft.read text
  let snapshot ← textRecord.reading Json.Draft.depthLimit draft
  Reading.ofFault (Json.Draft.checkEnd rest)
  return snapshot

/-- A text that may be absent. -/
def optionalText : Option String → Json.Value
  | some text => .text text
  | none => .null

/-- A node as a value. -/
def Node.toValue (node : Node) : Json.Value :=
  .object [
    ("id", .text node.id),
    ("type", .text node.type),
    ("position", (Codec.optional Position.record.codec).write node.position),
    ("data", node.data)]

/-- An edge as a value. -/
def Edge.toValue (edge : Edge) : Json.Value :=
  .object [
    ("source", .text edge.source),
    ("source_handle", optionalText edge.sourceHandle),
    ("target", .text edge.target),
    ("target_handle", optionalText edge.targetHandle)]

/-- A snapshot as a value. -/
def toValue (snapshot : Snapshot) : Json.Value :=
  .object [
    ("name", .text snapshot.name),
    ("nodes", .array (snapshot.nodes.map (·.toValue))),
    ("edges", .array (snapshot.edges.map (·.toValue)))]

/-- The text of a snapshot. -/
def render (snapshot : Snapshot) : String := snapshot.toValue.pretty

/-- The name of a graph that has none. -/
def defaultName : String := "main"

/-- The graph of a snapshot, or why there is none: every id has to be more than blank. -/
def toGraph (snapshot : Snapshot) : Except String Graph :=
  match snapshot.nodes.find? fun node => Text.isBlankText node.id with
  | some node =>
    let type := node.type
    .error s!"node of type '{type}' has an empty id"
  | none =>
    match snapshot.edges.find? fun edge =>
        Text.isBlankText edge.source || Text.isBlankText edge.target with
    | some edge =>
      let source := edge.source
      let target := edge.target
      .error s!"edge '{source}' -> '{target}' has an empty endpoint"
    | none => .ok {
        name := if Text.isBlankText snapshot.name then defaultName else snapshot.name
        nodes := snapshot.nodes.map fun node =>
          { id := node.id, kind := node.type, position := node.position, settings := node.data }
        edges := snapshot.edges.map fun edge =>
          ⟨edge.source, edge.sourceHandle.getD "flow", edge.target,
            edge.targetHandle.getD "flow"⟩ }

end Snapshot

/-- The compiler for the snapshot of a text. -/
def Compiler.ofText (text : String) : Except CompileError Compiler :=
  match Snapshot.ofText text with
  | .error failure => .error (.unreadable failure)
  | .ok snapshot =>
    match snapshot.toGraph with
    | .error reason => .error (.unusable reason)
    | .ok graph => .ok { graph }

end TickScript
