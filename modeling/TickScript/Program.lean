import TickScript.Defect
import TickScript.Node

/-!
# Programs

A program is a table of nodes with an entry and a list of tasks. `Program.defects` lists what keeps
it from being emitted: it needs one start node that is its entry, distinct task names, and a task
for every call.
-/

namespace TickScript

open TickScript.Settings

/-- A named part of a program that becomes a function of its own. -/
structure Task where
  name : String
  params : List Kind.TaskParam
  /-- The first node of the body, if the body is not empty. -/
  entry : Option String
  /-- The node that declares the task. -/
  defineNode : String

/-- How a task is read and written. -/
def Task.record : Record Task where
  name := "TaskDef"
  fields := [
    .required "name" .text (·.name) fun record name => { record with name },
    .required "params" (.list Kind.TaskParam.record.codec) (·.params)
      fun record params => { record with params },
    .required "entry_node_id" (.optional .text) (·.entry) fun record entry => { record with entry },
    .required "define_node_id" .text (·.defineNode)
      fun record defineNode => { record with defineNode }]
  blank := ⟨"", [], none, ""⟩

/-- A unit of compilation. -/
structure Program where
  fileId : String
  entry : String
  nodes : NodeTable := .empty
  tasks : List Task := []

namespace Program

/-- How a program is read and written. -/
def record : Record Program where
  name := "FileIr"
  fields := [
    .required "file_id" .text (·.fileId) fun record fileId => { record with fileId },
    .required "entry_node_id" .text (·.entry) fun record entry => { record with entry },
    .required "nodes" (.keyed .text Node.record.codec) (·.nodes)
      fun record nodes => { record with nodes },
    .defaulted "task_defs" (.list Task.record.codec) (·.tasks)
      fun record tasks => { record with tasks }]
  blank := { fileId := "", entry := "" }

/-- The node under an id. -/
def node? (program : Program) (id : String) : Option Node := program.nodes.get? id

/-- Whether a kind is the entry of a program. -/
def isStart : Kind → Bool
  | .start => true
  | _ => false

/-- The ids of the start nodes. -/
def starts (program : Program) : List String :=
  (program.nodes.values.filter fun node => isStart node.kind).map (·.id)

/-- What is wrong with the entry. -/
def entryDefects (program : Program) : List Defect :=
  match program.starts with
  | [] => [.missingEntry]
  | [only] => if only = program.entry then [] else [.entryMismatch program.entry]
  | first :: second :: _ => [.duplicateEntry first second]

/-- A defect for every name that stands earlier in a list of task names. -/
def repeatedTasks (seen : List String) : List String → List Defect
  | [] => []
  | name :: names =>
    if seen.contains name then .duplicateTask name :: repeatedTasks seen names
    else repeatedTasks (name :: seen) names

/-- The name of the task that a kind calls. -/
def calledTask? : Kind → Option String
  | .taskCall settings => some (settings.task.getD "")
  | _ => none

/-- A defect for every call of a task that is not among the names. -/
def unknownTasks (names : List String) (nodes : List Node) : List Defect :=
  nodes.filterMap fun node =>
    match calledTask? node.kind with
    | some task => if names.contains task then none else some (.unknownTask node.id task)
    | none => none

/-- What keeps a program from being emitted. -/
def defects (program : Program) : List Defect :=
  if program.nodes.isEmpty then [.emptyGraph]
  else
    let names := program.tasks.map (·.name)
    program.entryDefects ++ repeatedTasks [] names ++ unknownTasks names program.nodes.values

end Program

end TickScript
