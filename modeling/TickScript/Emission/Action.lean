import TickScript.Emission.Context

/-!
# Statements of action nodes

An action calls a method of the acting unit and holds its result code in a constant that is the
value of its node.
-/

namespace TickScript.Kind

open TickScript.Emission TickScript.Text

/-- The module that moves units. -/
def movementModule : String := "./lib/movement"

/-- How an action is called and what it aims at when nothing is set. -/
structure ActionForm where
  /-- The stem of the constant that holds the result code. -/
  stem : String
  method : String
  /-- The target as a member of the acting unit. -/
  defaultTarget : Option String := none

namespace ActionForm

/-- Harvest the closest active source. -/
def harvest : ActionForm :=
  ⟨"harvest", "harvest", some "pos.findClosestByRange(FIND_SOURCES_ACTIVE)"⟩

/-- Build the closest construction site. -/
def build : ActionForm :=
  ⟨"build", "build", some "pos.findClosestByRange(FIND_CONSTRUCTION_SITES)"⟩

/-- Repair the closest damaged structure. -/
def repair : ActionForm :=
  ⟨"repair", "repair", some
    "pos.findClosestByRange(FIND_STRUCTURES, \x7b filter: (s) => s.hits < s.hitsMax \x7d)"⟩

/-- Upgrade the controller of the room. -/
def upgrade : ActionForm := ⟨"upgrade", "upgradeController", some "room.controller"⟩

/-- Attack a given target. -/
def attack : ActionForm := ⟨"attack", "attack", none⟩

/-- Heal a given target. -/
def heal : ActionForm := ⟨"heal", "heal", none⟩

end ActionForm

/-- The storage of the room, from which resources come and to which they go. -/
def storageTarget : String := "room.storage"

/-- The target of an action: what is connected, else what is set, else the default. -/
def targetInput (node : Node) (configured : Literal) (defaultTarget : Option String)
    (actor : String) : Emit String :=
  let fallback :=
    match configured, defaultTarget with
    | .undefined, some member => .text (actor ++ "." ++ member)
    | configured, _ => configured
  Emit.input node "target" fallback

/-- Move towards a target that was out of range. -/
def approach (result actor target : String) : Emit Unit := do
  let travel ← Emit.require "travelTo" movementModule
  Emit.block s!"if ({result} === ERR_NOT_IN_RANGE)" do
    Emit.say s!"{travel}({actor}, {target});"

/-- The arguments of a transfer. -/
def transferArguments (target resource : String) : Option Nat → String
  | some amount => s!"{target}, {resource}, {amount}"
  | none => s!"{target}, {resource}"

/-- Move towards a target. -/
def Move.emit (settings : Move) (node : Node) : Emit Unit := do
  let actor ← Emit.actorInput node
  let target ← targetInput node settings.target none actor
  let travel ← Emit.require "travelTo" movementModule
  let call :=
    match settings.range with
    | some range => s!"{travel}({actor}, {target}, \x7b range: {range} \x7d)"
    | none => s!"{travel}({actor}, {target})"
  let _ ← Emit.define node "move" call

/-- Harvest, build or repair, and move closer if that is set. -/
def Work.emit (settings : Work) (form : ActionForm) (node : Node) : Emit Unit := do
  let actor ← Emit.actorInput node
  let target ← targetInput node settings.target form.defaultTarget actor
  let target ← if settings.moveCloser then Emit.bind "target" target else pure target
  let method := form.method
  let result ← Emit.define node form.stem s!"{atom actor}.{method}({target})"
  if settings.moveCloser then approach result actor target

/-- Upgrade, attack or heal. -/
def Target.emit (settings : Target) (form : ActionForm) (node : Node) : Emit Unit := do
  let actor ← Emit.actorInput node
  let target ← targetInput node settings.target form.defaultTarget actor
  let method := form.method
  let _ ← Emit.define node form.stem s!"{atom actor}.{method}({target})"

/-- Transfer a resource to a target. -/
def Transfer.emit (settings : Transfer) (node : Node) : Emit Unit := do
  let actor ← Emit.actorInput node
  let target ← targetInput node settings.target (some storageTarget) actor
  let target ← if settings.fallback = .move then Emit.bind "target" target else pure target
  let arguments := transferArguments target settings.resource settings.amount
  let result ← Emit.define node "transfer" s!"{atom actor}.transfer({arguments})"
  match settings.fallback with
  | .none => pure ()
  | .move => approach result actor target
  | .drop =>
    let resource := settings.resource
    Emit.block s!"if ({result} === ERR_NOT_IN_RANGE)" do
      Emit.say s!"{atom actor}.drop({resource});"

/-- Withdraw a resource from a target, and move closer to it if it is out of range. -/
def Withdraw.emit (settings : Withdraw) (node : Node) : Emit Unit := do
  let actor ← Emit.actorInput node
  let target ← targetInput node settings.target (some storageTarget) actor
  let target ← Emit.bind "target" target
  let arguments := transferArguments target settings.resource settings.amount
  let result ← Emit.define node "withdraw" s!"{atom actor}.withdraw({arguments})"
  approach result actor target

end TickScript.Kind
