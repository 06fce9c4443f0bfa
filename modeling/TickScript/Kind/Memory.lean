import TickScript.Settings.Record

/-!
# Settings of memory nodes

Reading, writing and deleting share one record: a scope and a path below it.
-/

namespace TickScript.Kind

open TickScript.Settings

/-- Whose memory is meant. -/
inductive MemoryScope where
  | global
  | room
  | actor
  deriving DecidableEq

/-- The names of scopes. -/
def MemoryScope.choice : Choice MemoryScope where
  all := [.global, .room, .actor]
  name
    | .global => "global"
    | .room => "room"
    | .actor => "actor"
  aliases
    | .global => ["default"]
    | .room => []
    | .actor => ["creep"]

/-- The settings of a memory node. -/
structure Memory where
  scope : MemoryScope := .global
  path : String := ""
  /-- What a read gives when nothing is stored. -/
  default : Literal := .undefined
  /-- What a write stores when no value is connected. -/
  value : Literal := .undefined
  /-- Whether a write keeps the other keys of a stored object. -/
  merge : Bool := false
  deriving BEq

/-- How a memory node is read. -/
def Memory.record : Record Memory where
  name := "MemoryConfig"
  fields := [
    .defaulted "scope" MemoryScope.choice.codec (·.scope) fun record scope => { record with scope },
    .defaulted "path" .text (·.path) fun record path => { record with path },
    .defaulted "default" .literal (·.default) fun record default => { record with default },
    .defaulted "value" .literal (·.value) fun record value => { record with value },
    .defaulted "merge" .boolean (·.merge) fun record merge => { record with merge }]
  blank := {}

end TickScript.Kind
