import TickScript.Emission.Context
import TickScript.Text.Path

/-!
# Statements of query nodes

A query looks objects up and holds them in a constant that is the value of its node.
-/

namespace TickScript.Kind

open TickScript.Emission TickScript.Text

/-- The module that finds what is closest to a position. -/
def positionModule : String := "./lib/position"

/-- The operator of a comparison between a member and a value. -/
def Comparison.operator? : Comparison → Option String
  | .eq => some "==="
  | .ne => some "!=="
  | .lt => some "<"
  | .lte => some "<="
  | .gt => some ">"
  | .gte => some ">="
  | .included | .unknown => none

/-- The condition of a filter on an object; an incomplete filter lets everything through. -/
def Filter.condition (filter : Filter) (object : String) : String :=
  match filter.field, filter.op with
  | some field, some op =>
    if isBlankText field then "true"
    else
      let member := memberPath object field
      let value := filter.value.render
      match op.operator? with
      | some operator => s!"{member} {operator} {value}"
      | none => if op = .included then s!"{atom value}.includes({member})" else "true"
  | _, _ => "true"

/-- The call that finds the objects of a search. -/
def Search.call (settings : Search) (room : String) : Emit String := do
  let receiver := atom room
  let find := settings.find
  if settings.filters.isEmpty then return s!"{receiver}.find({find})"
  else
    let object ← Emit.fresh "o"
    let conditions := " && ".intercalate (settings.filters.map (·.condition object))
    return s!"{receiver}.find({find}, \x7b filter: ({object}) => {conditions} \x7d)"

/-- Find objects in a room. -/
def Search.emit (settings : Search) (node : Node) : Emit Unit := do
  let room ← Emit.input node "room" (← Emit.actorMember "room")
  let found ← settings.call room
  let limit :=
    match settings.limit with
    | some limit => s!".slice(0, {limit})"
    | none => ""
  let first := if settings.mode = .first then "[0] ?? null" else ""
  let _ ← Emit.define node "found" (found ++ limit ++ first)

/-- Look an object up by its id. -/
def ById.emit (settings : ById) (node : Node) : Emit Unit := do
  let fallback :=
    match settings.id with
    | some id => Literal.text (quote id)
    | none => .undefined
  let id ← Emit.input node "id" fallback
  let _ ← Emit.define node "obj" s!"Game.getObjectById({id})"

/-- The call that looks at the square around a position. -/
def lookArea (look position radius : String) : String :=
  s!"Game.rooms[{position}.roomName].lookForAtArea({look}, " ++
    s!"Math.max(0, {position}.y - {radius}), Math.max(0, {position}.x - {radius}), " ++
    s!"Math.min(49, {position}.y + {radius}), Math.min(49, {position}.x + {radius}), true)"

/-- Look at a position or at the square around it. -/
def Look.emit (settings : Look) (node : Node) : Emit Unit := do
  let position ← Emit.input node "pos" (← Emit.actorMember "pos")
  let name ← Emit.fresh "look"
  let look := settings.look
  match settings.mode with
  | .point => Emit.say s!"const {name} = {atom position}.lookFor({look});"
  | .area =>
    let radius ← Emit.input node "radius" (.number (.ofInt settings.radius))
    let position ← Emit.bind "pos" position
    Emit.say s!"const {name} = {lookArea look position (atom radius)};"
  Emit.produce node.id name

/-- The function that finds what is closest by range or by path. -/
def BestStrategy.finder : BestStrategy → String
  | .path => "findClosestByPath"
  | _ => "findClosestByRange"

/-- Take the item closest to the acting unit. -/
def Best.emitClosest (settings : Best) (node : Node) (list : String) : Emit String := do
  let origin ← Emit.input node "origin" (← Emit.actorMember "pos")
  let finder ← Emit.require settings.strategy.finder positionModule
  let best ← Emit.fresh "best"
  Emit.say s!"const {best} = {finder}({origin}, {list});"
  return best

/-- Take the item with the least or the greatest key, in a loop over all. -/
def Best.emitExtreme (settings : Best) (list : String) : Emit String := do
  let best ← Emit.fresh "best"
  let score ← Emit.fresh "score"
  let candidate ← Emit.fresh "c"
  let value ← Emit.fresh "v"
  let key :=
    match settings.key with
    | some path => memberPath candidate path
    | none => candidate
  let operator := if settings.strategy = .min then "<" else ">"
  Emit.say s!"let {best} = null;"
  Emit.say s!"let {score} = null;"
  Emit.block s!"for (const {candidate} of {list})" do
    Emit.say s!"if ({candidate} == null) continue;"
    Emit.say s!"const {value} = {key};"
    Emit.block s!"if ({score} === null || {value} {operator} {score})" do
      Emit.say s!"{best} = {candidate};"
      Emit.say s!"{score} = {value};"
  return best

/-- Take the best item of a list. -/
def Best.emit (settings : Best) (node : Node) : Emit Unit := do
  let list ← Emit.input node "list" (.list [])
  let best ←
    match settings.strategy with
    | .range | .path => settings.emitClosest node list
    | .min | .max => settings.emitExtreme list
  Emit.produce node.id best

end TickScript.Kind
