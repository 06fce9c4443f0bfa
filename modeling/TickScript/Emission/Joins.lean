import TickScript.Node

/-!
# Join points

While the slots of a control node are written, a node that several of them lead to has to wait: it
is written once, after the whole construct. `sharedContinuations` finds these nodes by following
flow outputs from each slot.
-/

namespace TickScript.Emission

/-- The flow outputs of the node under an id; a missing node has none. -/
def outputsOf (table : NodeTable) (id : String) : List String :=
  match table.get? id with
  | some node => node.outputs
  | none => []

/-- The ids that are reached from those on a stack, in the order of their discovery and after those
reached before. The search goes depth first and does not enter barred ids. -/
def explore (table : NodeTable) (barred : List String) :
    Nat → List String → List String → List String
  | 0, _, reached => reached
  | _ + 1, [], reached => reached
  | budget + 1, id :: stack, reached =>
    if barred.contains id || reached.contains id then explore table barred budget stack reached
    else explore table barred budget (outputsOf table id ++ stack) (reached ++ [id])

/-- The number of outputs of all nodes. -/
def totalOutputs (table : NodeTable) : Nat :=
  table.values.foldl (fun total node => total + node.outputs.length) 0

/-- The ids that are reached from the heads of a slot. Every head and every output is taken from the
stack at most once, which bounds the search. -/
def reachable (table : NodeTable) (barred heads : List String) : List String :=
  explore table barred (heads.length + totalOutputs table) heads []

/-- The ids of several lists in the order of their first occurrence. -/
def firstOccurrences (lists : List (List String)) : List String :=
  lists.flatten.foldl (fun kept id => if kept.contains id then kept else kept ++ [id]) []

/-- The ids that more than one slot of a node leads to, in the order of their discovery. The node
itself and nodes that are already written are not passed through. -/
def sharedContinuations (table : NodeTable) (visited : List String) (node : Node) : List String :=
  let reached := node.branches.map (reachable table (node.id :: visited))
  (firstOccurrences reached).filter fun id => 1 < reached.countP (·.contains id)

end TickScript.Emission
