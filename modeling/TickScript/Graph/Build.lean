import TickScript.Emission.Step
import TickScript.Graph
import TickScript.Program
import TickScript.Text.Blank

/-!
# From graphs to programs

`Graph.build` turns a graph into a program. Nodes come first, then edges, then tasks; every step
notes what is wrong and goes on, so that one run reports all defects. A node or an edge with a
defect is left out of the program, which is given up in the end.
-/

namespace TickScript

/-- Names of the user for built-in kinds. -/
abbrev KindNames := Keyed String String

namespace KindNames

/-- Let a name stand for a built-in kind. A name for any other kind is ignored. -/
def define (names : KindNames) (name builtin : String) : KindNames :=
  if Kind.isBuiltin builtin then names.insert name builtin else names

/-- The kind that a name stands for. -/
def resolve (names : KindNames) (name : String) : String := (names.get? name).getD name

end KindNames

namespace Graph

/-- Where an edge leaves its source. -/
inductive SourcePort where
  | flow
  | slot (name : String)
  | data (name : String)
  deriving DecidableEq

/-- Where an edge enters its target. -/
inductive TargetPort where
  | flow
  | data (name : String)
  deriving DecidableEq

/-- What follows a label at the front of a character list. -/
def afterLabel? : List Char → List Char → Option (List Char)
  | [], rest => some rest
  | _ :: _, [] => none
  | expected :: label, c :: rest => if c = expected then afterLabel? label rest else none

/-- What follows a label in a port name, if it is not empty. -/
def labelled? (label port : String) : Option String :=
  match afterLabel? label.toList port.toList with
  | some (c :: name) => some (String.ofList (c :: name))
  | _ => none

/-- The source port of a name. -/
def SourcePort.ofName? (port : String) : Option SourcePort :=
  if port = "flow" ∨ port = "out" then some .flow
  else
    match labelled? "slot:" port with
    | some name => some (.slot name)
    | none => (labelled? "data:" port).map .data

/-- The target port of a name. -/
def TargetPort.ofName? (port : String) : Option TargetPort :=
  if port = "flow" ∨ port = "in" then some .flow
  else (labelled? "data:" port).map .data

/-- Split settings into the constant inputs, which stand under `inputs`, and the rest. -/
def splitSettings (settings : Json.Value) : Keyed String Port × Json.Value :=
  match settings with
  | .null => (.empty, .object [])
  | .object members =>
    let rest := members.filter fun member => member.1 != "inputs"
    let inputs :=
      match members.lookup "inputs" with
      | some (.object inputs) =>
        Keyed.ofList (inputs.map fun (name, value) => (name, Port.literal (.ofValue value)))
      | _ => .empty
    (inputs, .object rest)
  | other => (.empty, other)

/-- A program while it is built. -/
structure Building where
  nodes : NodeTable := .empty
  /-- The ids of all nodes in their order, with those that have a defect. -/
  declared : List String := []
  defects : List Defect := []
  warnings : List Diagnostic := []

namespace Building

/-- Note a defect. -/
def reject (building : Building) (defect : Defect) : Building :=
  { building with defects := building.defects ++ [defect] }

/-- Note a warning about a node. -/
def warn (building : Building) (nodeId message : String) : Building :=
  { building with warnings := building.warnings ++ [⟨some nodeId, message⟩] }

/-- Change the node under an id. -/
def update (building : Building) (id : String) (change : TickScript.Node → TickScript.Node) :
    Building :=
  match building.nodes.get? id with
  | some node => { building with nodes := building.nodes.insert id (change node) }
  | none => building

/-- The kind of a node: a built-in one, with its defaults and a warning if its settings do not fit,
or one that the registry has an emitter for. -/
def resolveKind (names : KindNames) (registry : Emission.Registry) (node : Graph.Node)
    (settings : Json.Value) : Option Kind × Option String :=
  let name := names.resolve node.kind
  match Kind.ofSettings name settings with
  | some (.ok kind) => (some kind, none)
  | some (.error failure) =>
    let reason := failure.message
    (Kind.withDefaults name, some s!"invalid settings for kind {name} ({reason}); using defaults")
  | none =>
    if registry.contains name then (some (.custom ⟨name, settings⟩), none) else (none, none)

/-- Add a node. -/
def addNode (names : KindNames) (registry : Emission.Registry) (building : Building)
    (node : Graph.Node) : Building :=
  if building.declared.contains node.id then building.reject (.duplicateNodeId node.id)
  else
    let building := { building with declared := building.declared ++ [node.id] }
    let (inputs, settings) := splitSettings node.settings
    let (kind, warning) := resolveKind names registry node settings
    let building :=
      match warning with
      | some message => building.warn node.id message
      | none => building
    match kind with
    | some kind =>
      { building with nodes := building.nodes.insert node.id { id := node.id, kind, inputs } }
    | none => building.reject (.unknownKind node.id node.kind)

/-- A list with an item at its end, unless it is there already. -/
def addOnce (items : List String) (item : String) : List String :=
  if items.contains item then items else items ++ [item]

/-- Connect an input to the value of a node. A connection that is replaced is worth a warning. -/
def connect (building : Building) (source port target input : String) : Building :=
  let earlier := (building.nodes.get? target).bind (·.input? input)
  let building := building.update target (·.withInput input (.edge source port))
  match earlier with
  | some (.edge _ _) =>
    building.warn target
      s!"input '{input}' has more than one connection; using the one from '{source}'"
  | _ => building

/-- Add an edge between nodes that exist. -/
def addConnection (building : Building) (edge : Edge) : Building :=
  match SourcePort.ofName? edge.sourcePort, TargetPort.ofName? edge.targetPort with
  | none, _ => building.reject (.invalidPort edge.source edge.sourcePort)
  | some _, none => building.reject (.invalidPort edge.target edge.targetPort)
  | some .flow, some .flow =>
    building.update edge.source fun node =>
      { node with outputs := addOnce node.outputs edge.target }
  | some (.slot slot), some .flow =>
    building.update edge.source fun node =>
      { node with slots := node.slots.insert slot (addOnce (node.slot slot) edge.target) }
  | some (.data port), some (.data input) =>
    building.connect edge.source port edge.target input
  | some _, some _ =>
    building.reject (.invalidPort edge.target (edge.sourcePort ++ " -> " ++ edge.targetPort))

/-- Add an edge. An edge of a node with a defect is passed over. -/
def addEdge (building : Building) (edge : Edge) : Building :=
  if !building.declared.contains edge.source then
    building.reject (.nodeNotFound edge.source edge.target)
  else if !building.declared.contains edge.target then
    building.reject (.nodeNotFound edge.target edge.source)
  else if building.nodes.contains edge.source && building.nodes.contains edge.target then
    building.addConnection edge
  else building

/-- The nodes of the program in the order in which they were declared. -/
def declaredNodes (building : Building) : List TickScript.Node :=
  building.declared.filterMap building.nodes.get?

/-- The trimmed name of a task definition, if it is not blank. -/
def taskName? (settings : Kind.TaskDefine) : Option String :=
  match settings.name with
  | some name => if Text.isBlankText name then none else some (Text.trim name)
  | none => none

/-- The nodes at which the body of a task may begin. -/
def bodyEntries (node : TickScript.Node) : List String := node.outputs ++ node.slot "body"

/-- Add the task that a node declares. -/
def addTask (state : Building × List Task) (node : TickScript.Node) : Building × List Task :=
  let (building, tasks) := state
  match node.kind with
  | .taskDefine settings =>
    match taskName? settings with
    | none => (building.reject (.missingTaskName node.id), tasks)
    | some name =>
      let entries := bodyEntries node
      let building :=
        match entries with
        | first :: _ :: _ =>
          building.warn node.id s!"task '{name}' has more than one body entry; using '{first}'"
        | _ => building
      (building, tasks ++ [⟨name, settings.params, entries.head?, node.id⟩])
  | _ => (building, tasks)

/-- Warn of the inputs of a node that nothing is given for. -/
def checkInputs (building : Building) (node : TickScript.Node) : Building :=
  (node.kind.requiredInputs.filter fun input => !node.inputs.contains input).foldl
    (fun building input =>
      building.warn node.id s!"input '{input}' is not connected and has no fallback") building

/-- The id of the first start node, or the empty id. -/
def entry (building : Building) : String :=
  match building.declaredNodes.find? fun node => Program.isStart node.kind with
  | some node => node.id
  | none => ""

end Building

/-- Defects of the program that are not noted yet. -/
def addDefects (noted defects : List Defect) : List Defect :=
  defects.foldl
    (fun noted defect => if noted.contains defect then noted else noted ++ [defect]) noted

/-- Why a graph gives no program. -/
structure Rejection where
  defects : List Defect
  warnings : List Diagnostic

/-- The nodes and edges of a graph. -/
def assemble (graph : Graph) (names : KindNames) (registry : Emission.Registry) : Building :=
  graph.edges.foldl Building.addEdge (graph.nodes.foldl (Building.addNode names registry) {})

/-- The program of a graph with its warnings, or all its defects. -/
def build (graph : Graph) (names : KindNames) (registry : Emission.Registry) :
    Except Rejection (Program × List Diagnostic) :=
  if graph.nodes.isEmpty then .error ⟨[.emptyGraph], []⟩
  else
    let building := graph.assemble names registry
    let (building, tasks) := building.declaredNodes.foldl Building.addTask (building, [])
    let building := building.declaredNodes.foldl Building.checkInputs building
    let program : Program := ⟨graph.name, building.entry, building.nodes, tasks⟩
    match addDefects building.defects program.defects with
    | [] => .ok (program, building.warnings)
    | defects => .error ⟨defects, building.warnings⟩

end Graph

end TickScript
