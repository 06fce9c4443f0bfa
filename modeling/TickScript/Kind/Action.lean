import TickScript.Settings.Record

/-!
# Settings of action nodes

What a unit does to a target: moving, working, and transferring resources.
-/

namespace TickScript.Kind

open TickScript.Settings

/-- The settings of a move. -/
structure Move where
  target : Literal := .undefined
  range : Option Nat := none
  deriving BEq

/-- How a move is read. -/
def Move.record : Record Move where
  name := "MoveConfig"
  fields := [
    .defaulted "target" .literal (·.target) fun record target => { record with target },
    .defaulted "range" (.optional .unsigned32) (·.range) fun record range => { record with range }]
  blank := {}

/-- The settings of harvesting, building and repairing. -/
structure Work where
  target : Literal := .undefined
  moveCloser : Bool := false
  deriving BEq

/-- How work is read. -/
def Work.record : Record Work where
  name := "WorkConfig"
  fields := [
    .defaulted "target" .literal (·.target) fun record target => { record with target },
    .defaulted "moveCloser" .boolean (·.moveCloser)
      fun record moveCloser => { record with moveCloser }]
  blank := {}

/-- What happens when the target of a transfer is out of range. -/
inductive TransferFallback where
  | none
  | move
  | drop
  deriving DecidableEq

/-- The names of fallbacks. -/
def TransferFallback.choice : Choice TransferFallback where
  all := [.none, .move, .drop]
  name
    | .none => "none"
    | .move => "move"
    | .drop => "drop"

/-- The settings of a transfer. -/
structure Transfer where
  target : Literal := .undefined
  resource : String := "RESOURCE_ENERGY"
  amount : Option Nat := .none
  fallback : TransferFallback := .none
  deriving BEq

/-- How a transfer is read. -/
def Transfer.record : Record Transfer where
  name := "TransferConfig"
  fields := [
    .defaulted "target" .literal (·.target) fun record target => { record with target },
    .defaulted "resource" .text (·.resource) fun record resource => { record with resource },
    .defaulted "amount" (.optional .unsigned32) (·.amount)
      fun record amount => { record with amount },
    .defaulted "fallback" TransferFallback.choice.codec (·.fallback)
      fun record fallback => { record with fallback }]
  blank := {}

/-- The settings of a withdrawal. -/
structure Withdraw where
  target : Literal := .undefined
  resource : String := "RESOURCE_ENERGY"
  amount : Option Nat := .none
  deriving BEq

/-- How a withdrawal is read. -/
def Withdraw.record : Record Withdraw where
  name := "WithdrawConfig"
  fields := [
    .defaulted "target" .literal (·.target) fun record target => { record with target },
    .defaulted "resource" .text (·.resource) fun record resource => { record with resource },
    .defaulted "amount" (.optional .unsigned32) (·.amount)
      fun record amount => { record with amount }]
  blank := {}

/-- The settings of upgrading, attacking and healing. -/
structure Target where
  target : Literal := .undefined
  deriving BEq

/-- How a target is read. -/
def Target.record : Record Target where
  name := "TargetConfig"
  fields := [.defaulted "target" .literal (·.target) fun record target => { record with target }]
  blank := {}

end TickScript.Kind
