import TickScript.Settings.Record

/-!
# Settings of flow nodes

Switches, loops, tick gates and returns. Nodes without settings share the empty record.
-/

namespace TickScript.Kind

open TickScript.Settings

/-- The settings of a node that has none. -/
def emptyRecord : Record Unit where
  name := "EmptyConfig"
  fields := []
  blank := ()

/-- One case of a switch. -/
structure SwitchCase where
  value : Literal := .undefined
  deriving BEq

/-- How a case is read. -/
def SwitchCase.record : Record SwitchCase where
  name := "SwitchCase"
  fields := [.defaulted "value" .literal (·.value) fun record value => { record with value }]
  blank := {}

/-- The cases of a switch. -/
structure Switch where
  cases : List SwitchCase := []
  deriving BEq

/-- How a switch is read. -/
def Switch.record : Record Switch where
  name := "SwitchConfig"
  fields := [
    .defaulted "cases" (.list SwitchCase.record.codec) (·.cases)
      fun record cases => { record with cases }]
  blank := {}

/-- What ends a loop. -/
inductive LoopMode where
  | counted
  | conditional
  deriving DecidableEq

/-- The names of loop modes. -/
def LoopMode.choice : Choice LoopMode where
  all := [.counted, .conditional]
  name
    | .counted => "counted"
    | .conditional => "conditional"
  aliases
    | .counted => []
    | .conditional => ["while"]

/-- The settings of a loop. -/
structure Loop where
  mode : LoopMode := .counted
  max : Option Int := none
  iterator : Option String := none
  deriving BEq

/-- How a loop is read. -/
def Loop.record : Record Loop where
  name := "LoopConfig"
  fields := [
    .defaulted "mode" LoopMode.choice.codec (·.mode) fun record mode => { record with mode },
    .defaulted "max" (.optional .signed64) (·.max) (fun record max => { record with max })
      ["maxIterations"],
    .defaulted "iterator" (.optional .text) (·.iterator)
      fun record iterator => { record with iterator }]
  blank := {}

/-- How often a loop may run: ten times unless a positive bound is set. -/
def Loop.maxIterations (loop : Loop) : Nat :=
  match loop.max with
  | some bound => if 0 < bound then bound.toNat else 10
  | none => 10

/-- How a tick gate uses its offset. -/
inductive TickMode where
  /-- The tick plus the offset is a multiple of the interval. -/
  | multiple
  /-- The tick leaves the offset as remainder. -/
  | modulo
  deriving DecidableEq

/-- The names of tick modes. -/
def TickMode.choice : Choice TickMode where
  all := [.multiple, .modulo]
  name
    | .multiple => "multiple"
    | .modulo => "modulo"

/-- The settings of a tick gate. -/
structure Tick where
  interval : Int := 1
  offset : Int := 0
  mode : TickMode := .multiple
  deriving BEq

/-- How a tick gate is read. -/
def Tick.record : Record Tick where
  name := "TickConfig"
  fields := [
    .defaulted "interval" .signed64 (·.interval) fun record interval => { record with interval },
    .defaulted "offset" .signed64 (·.offset) fun record offset => { record with offset },
    .defaulted "mode" TickMode.choice.codec (·.mode) fun record mode => { record with mode }]
  blank := {}

/-- The settings of a return. -/
structure Return where
  value : Literal := .undefined
  deriving BEq

/-- How a return is read. -/
def Return.record : Record Return where
  name := "ReturnConfig"
  fields := [.defaulted "value" .literal (·.value) fun record value => { record with value }]
  blank := {}

end TickScript.Kind
