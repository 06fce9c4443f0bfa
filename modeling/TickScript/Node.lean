import TickScript.Kind

/-!
# Nodes

A node has an id, a kind, named inputs, flow outputs and named slots. An input comes from another
node or is a constant. A slot holds the heads of an independent chain of nodes.
-/

namespace TickScript

open TickScript.Settings

/-- Where a node input comes from. -/
inductive Port where
  /-- The value that another node produces. -/
  | edge (source port : String)
  /-- A constant. -/
  | literal (value : Literal)

namespace Port

/-- The node that an input comes from. -/
def source? : Port → Option String
  | .edge source _ => some source
  | .literal _ => none

/-- How the members of an edge are read. -/
def edgeRecord : Record (String × String) where
  name := "variant PortRef::Edge"
  fields := [
    .required "fromNodeId" .text (·.1) fun record source => (source, record.2),
    .required "port" .text (·.2) fun record port => (record.1, port)]
  blank := ("", "")

/-- How the members of a constant are read. -/
def literalRecord : Record Literal where
  name := "variant PortRef::Literal"
  fields := [.required "value" .literal id fun _ value => value]
  blank := .undefined

/-- Which of the two forms a tag names: true for an edge. -/
def readTag (tag : Json.Value) : Except Failure Bool :=
  match tag with
  | .text "edge" => .ok true
  | .text "literal" => .ok false
  | .text name => .error (.unknownChoice name ["edge", "literal"])
  | _ => Codec.mismatch tag .tag

/-- A port is an object with its tag among its members, or an array that begins with the tag. -/
def read (value : Json.Value) : Except Failure Port :=
  match value with
  | .object members =>
    match members.lookup "type" with
    | none => .error (.missing "type")
    | some tag => do
      let rest := members.filter fun member => member.1 != "type"
      if ← readTag tag then
        let (source, port) ← edgeRecord.readMembers .buffered rest
        return .edge source port
      else .literal <$> literalRecord.readMembers .buffered rest
  | .array [] => .error (.missing "type")
  | .array (tag :: rest) => do
    if ← readTag tag then
      let (source, port) ← edgeRecord.readItems .buffered rest
      return .edge source port
    else .literal <$> literalRecord.readItems .buffered rest
  | _ => Codec.mismatch value (.selfTagged "PortRef")

/-- How a port is read and written. -/
def codec : Codec Port where
  read := fun _ value => read value
  write
    | .edge source port =>
      .object [("type", .text "edge"), ("fromNodeId", .text source), ("port", .text port)]
    | .literal value => .object [("type", .text "literal"), ("value", value.toValue)]

end Port

/-- One node of a program. -/
structure Node where
  id : String
  kind : Kind
  inputs : Keyed String Port := .empty
  /-- The nodes that run after this one. -/
  outputs : List String := []
  slots : Keyed String (List String) := .empty

namespace Node

/-- Set an input. -/
def withInput (node : Node) (name : String) (port : Port) : Node :=
  { node with inputs := node.inputs.insert name port }

/-- Add a flow output. -/
def withOutput (node : Node) (next : String) : Node :=
  { node with outputs := node.outputs ++ [next] }

/-- The heads of a slot; a slot that does not exist has none. -/
def slot (node : Node) (name : String) : List String :=
  (node.slots.get? name).getD []

/-- Add heads to a slot. -/
def withSlot (node : Node) (name : String) (children : List String) : Node :=
  { node with slots := node.slots.insert name (node.slot name ++ children) }

/-- Where an input comes from. -/
def input? (node : Node) (name : String) : Option Port := node.inputs.get? name

/-- The slots that have heads, in the order of their names. -/
def branches (node : Node) : List (List String) :=
  node.slots.values.filter fun children => !children.isEmpty

/-- Whether a slot has heads, so that the node is a control structure. -/
def hasBranches (node : Node) : Bool := !node.branches.isEmpty

/-- How a node is read and written. -/
def record : Record Node where
  name := "NodeIr"
  fields := [
    .required "id" .text (·.id) fun record id => { record with id },
    .required "kind" Kind.codec (·.kind) fun record kind => { record with kind },
    .defaulted "inputs" (.keyed .text Port.codec) (·.inputs)
      fun record inputs => { record with inputs },
    .defaulted "outputs" (.list .text) (·.outputs) fun record outputs => { record with outputs },
    .defaulted "slots" (.keyed .text (.list .text)) (·.slots)
      fun record slots => { record with slots }]
  blank := { id := "", kind := .start }

end Node

/-- The nodes of a program by their ids. -/
abbrev NodeTable := Keyed String Node

end TickScript
