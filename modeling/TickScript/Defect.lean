import TickScript.Diagnostic

/-!
# Defects of a graph

A defect is a structural problem that keeps a graph from being compiled.
-/

namespace TickScript

/-- Why a graph cannot be compiled. -/
inductive Defect where
  | emptyGraph
  | missingEntry
  | duplicateEntry (first second : String)
  | entryMismatch (entry : String)
  | duplicateNodeId (nodeId : String)
  | unknownKind (nodeId kind : String)
  | nodeNotFound (missing source : String)
  | invalidPort (nodeId port : String)
  | missingTaskName (nodeId : String)
  | duplicateTask (name : String)
  | unknownTask (nodeId task : String)
  deriving DecidableEq

namespace Defect

/-- The wording of a defect. -/
def message : Defect → String
  | .emptyGraph => "The graph has no nodes"
  | .missingEntry => "The graph has no start node"
  | .duplicateEntry first second =>
    "The graph has more than one start node ('" ++ first ++ "' and '" ++ second ++ "')"
  | .entryMismatch entry => "Entry node '" ++ entry ++ "' is not the graph's start node"
  | .duplicateNodeId nodeId => "Node id '" ++ nodeId ++ "' is used more than once"
  | .unknownKind nodeId kind =>
    "Node '" ++ nodeId ++ "' has an unregistered node kind: '" ++ kind ++ "'"
  | .nodeNotFound missing source =>
    "Node '" ++ missing ++ "' not found, which is required by a connection from node '" ++
      source ++ "'"
  | .invalidPort nodeId port =>
    "Node '" ++ nodeId ++ "' has an invalid connection port '" ++ port ++ "'"
  | .missingTaskName nodeId => "Task definition '" ++ nodeId ++ "' has no name"
  | .duplicateTask name => "Task '" ++ name ++ "' is defined more than once"
  | .unknownTask nodeId task => "Node '" ++ nodeId ++ "' calls unknown task '" ++ task ++ "'"

/-- The node that a defect is about. -/
def nodeId? : Defect → Option String
  | .emptyGraph | .missingEntry | .duplicateTask _ => none
  | .duplicateEntry _ second => some second
  | .entryMismatch entry => some entry
  | .duplicateNodeId nodeId | .unknownKind nodeId _ | .invalidPort nodeId _
  | .missingTaskName nodeId | .unknownTask nodeId _ => some nodeId
  | .nodeNotFound _ source => some source

/-- The defect as a diagnostic. -/
def toDiagnostic (defect : Defect) : Diagnostic := ⟨defect.nodeId?, defect.message⟩

end Defect

end TickScript
