import TickScript.Settings.Record

/-!
# Settings of task nodes

A task definition names a task and lists its parameters; a call names the task and its arguments.
-/

namespace TickScript.Kind

open TickScript.Settings

/-- One parameter of a task. -/
structure TaskParam where
  key : String := ""
  type : String := "any"
  default : Option Literal := none
  deriving BEq

/-- How a parameter is read. -/
def TaskParam.record : Record TaskParam where
  name := "TaskParam"
  fields := [
    .defaulted "key" .text (·.key) fun record key => { record with key },
    .defaulted "type" .text (·.type) fun record type => { record with type },
    .defaulted "default" (.optional .literal) (·.default)
      fun record default => { record with default }]
  blank := {}

/-- The settings of a task definition. -/
structure TaskDefine where
  name : Option String := none
  params : List TaskParam := []
  deriving BEq

/-- How a task definition is read. -/
def TaskDefine.record : Record TaskDefine where
  name := "TaskDefineConfig"
  fields := [
    .defaulted "name" (.optional .text) (·.name) fun record name => { record with name },
    .defaulted "params" (.list TaskParam.record.codec) (·.params)
      fun record params => { record with params }]
  blank := {}

/-- The settings of a task call. -/
structure TaskCall where
  task : Option String := none
  args : Literal := .undefined
  deriving BEq

/-- How a task call is read. -/
def TaskCall.record : Record TaskCall where
  name := "TaskCallConfig"
  fields := [
    .defaulted "task" (.optional .text) (·.task) (fun record task => { record with task })
      ["name"],
    .defaulted "args" .literal (·.args) fun record args => { record with args }]
  blank := {}

end TickScript.Kind
