import TickScript.Emission.Context

/-!
# Statements of task calls

A call passes one object of arguments, with the acting unit in it.
-/

namespace TickScript.Kind.TaskCall

open TickScript.Emission TickScript.Text

/-- The arguments of a call: those that are set, and the acting unit unless they name one. -/
def arguments (configured : Literal) (actor : String) : Literal :=
  match configured with
  | .undefined | .null => .map [("creep", .text actor)]
  | .map entries =>
    if entries.any (·.1 == "creep") then .map entries
    else .map (("creep", .text actor) :: entries)
  | other => other

/-- Call a task. -/
def emit (settings : TaskCall) (node : Node) : Emit Unit := do
  let name := settings.task.getD ""
  let actor ← Emit.actorInput node
  let args ← Emit.input node "args" (arguments settings.args actor)
  let _ ← Emit.define node "task" s!"{taskIdentifier name}({args})"

end TickScript.Kind.TaskCall
