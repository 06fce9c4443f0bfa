import TickScript.Emission.Context
import TickScript.Text.Path

/-!
# Statements of structure nodes

Links send energy, markets take orders and deals, towers act on what is closest to them.
-/

namespace TickScript.Kind

open TickScript.Emission TickScript.Text

/-- The expression for an object whose id is set. -/
def objectById : Option String → Literal
  | some id => .text s!"Game.getObjectById({quote id})"
  | none => .undefined

/-- Send energy from one link to another. -/
def Link.emit (settings : Link) (node : Node) : Emit Unit := do
  let source ← Emit.input node "source" (objectById settings.source)
  let target ← Emit.input node "target" (objectById settings.target)
  let source ← Emit.bind "link" source
  let arguments :=
    match settings.amount with
    | some amount => s!"{target}, {amount}"
    | none => target
  let _ ← Emit.define node "linked"
    s!"{source} && {source}.cooldown === 0 ? {source}.transferEnergy({arguments}) : ERR_TIRED"

namespace Market

/-- The call that places an order. -/
def orderCall (settings : Market) (node : Node) (terminal : String) (amount : Literal) :
    Emit String := do
  let order := if settings.mode = .buy then "ORDER_BUY" else "ORDER_SELL"
  let fallback :=
    match settings.price with
    | some price => Literal.number price
    | none => .undefined
  let price ← Emit.optionalInput node "price" fallback
  let fields := Literal.settingsObject [
    ("type", .text order),
    ("resourceType", .text settings.resource),
    ("price", price),
    ("totalAmount", amount),
    ("roomName", .text s!"{terminal}.room.name")]
  return s!"Game.market.createOrder({fields})"

/-- The call that accepts an order of someone else. -/
def dealCall (settings : Market) (node : Node) (terminal : String) (amount : Literal) :
    Emit String := do
  let fallback :=
    match settings.orderId with
    | some id => Literal.text (quote id)
    | none => .undefined
  let order ← Emit.optionalInput node "orderId" fallback
  if order.isUndefined then Emit.warn node.id "market deal has no order id"
  return s!"Game.market.deal({order.render}, {amount.render}, {terminal}.room.name)"

/-- Trade through a terminal, if there is one. -/
def emit (settings : Market) (node : Node) : Emit Unit := do
  let terminal ← Emit.input node "terminal" (← Emit.actorMember "room.terminal")
  let terminal ← Emit.bind "terminal" terminal
  let fallback :=
    match settings.amount with
    | some amount => Literal.number (.ofInt amount)
    | none => .undefined
  let amount ← Emit.optionalInput node "amount" fallback
  let call ←
    match settings.mode with
    | .buy | .sell => settings.orderCall node terminal amount
    | .deal => settings.dealCall node terminal amount
  let result ← Emit.fresh "market"
  Emit.say s!"let {result} = ERR_NOT_FOUND;"
  Emit.block s!"if ({terminal})" do
    Emit.say s!"{result} = {call};"
  Emit.produce node.id result

end Market

namespace Tower

/-- A list without the later repeats of its items. -/
def distinct (actions : List TowerAction) : List TowerAction :=
  actions.foldl (fun kept action => if kept.contains action then kept else kept ++ [action]) []

/-- The expression for what a tower acts on. -/
def findTarget (settings : Tower) (tower : String) : TowerAction → String
  | .heal =>
    let share := settings.healBelow.scriptText
    s!"{tower}.pos.findClosestByRange(FIND_MY_CREEPS, " ++
      s!"\x7b filter: (c) => c.hits < c.hitsMax * {share} \x7d)"
  | .attack => s!"{tower}.pos.findClosestByRange(FIND_HOSTILE_CREEPS)"
  | .repair =>
    let share := settings.repairBelow.scriptText
    s!"{tower}.pos.findClosestByRange(FIND_STRUCTURES, " ++
      s!"\x7b filter: (s) => s.hits < s.hitsMax * {share} \x7d)"

/-- The block of one action of a tower. -/
def emitAction (settings : Tower) (tower chosen target : String) (action : TowerAction) :
    Emit Unit :=
  Emit.block s!"if ({chosen} === {quote action.name})" do
    if action = .repair then
      let energy := settings.minRepairEnergy
      Emit.say s!"if ({tower}.store[RESOURCE_ENERGY] < {energy}) continue;"
    let found := settings.findTarget tower action
    let method := action.name
    Emit.say s!"const {target} = {found};"
    Emit.say s!"if ({target} && {tower}.{method}({target}) === OK) break;"

/-- Let every tower of a room act, by priority. -/
def emit (settings : Tower) (node : Node) : Emit Unit := do
  let room ← Emit.input node "room" (← Emit.actorMember "room")
  let priorities := distinct settings.priorities
  if priorities.isEmpty then Emit.warn node.id "tower has no priorities configured"
  let towers ← Emit.fresh "towers"
  let tower ← Emit.fresh "tower"
  let chosen ← Emit.fresh "action"
  let target ← Emit.fresh "target"
  Emit.say (s!"const {towers} = {atom room}.find(FIND_MY_STRUCTURES, " ++
    "\x7b filter: (s) => s.structureType === STRUCTURE_TOWER \x7d);")
  let order := listing (priorities.map fun action => quote action.name)
  Emit.block s!"for (const {tower} of {towers})" do
    Emit.block s!"for (const {chosen} of {order})" do
      priorities.forM (settings.emitAction tower chosen target)
  Emit.produce node.id towers

end Tower

end TickScript.Kind
