import TickScript.Kind.Action
import TickScript.Kind.Flow
import TickScript.Kind.Memory
import TickScript.Kind.Query
import TickScript.Kind.Structure
import TickScript.Kind.Task

/-!
# Kinds of nodes

A kind says what a node does and holds its settings. The built-in kinds are listed in `shapes` with
their names; any other kind is custom and keeps its settings as they are. `ofSettings` reads the
settings of a built-in kind.
-/

namespace TickScript

open TickScript.Settings

/-- The groups of kinds. -/
inductive Family where
  | flow
  | query
  | action
  | building
  | memory
  | task
  | custom
  deriving DecidableEq

/-- The name of a group. -/
def Family.name : Family → String
  | .flow => "flow"
  | .query => "query"
  | .action => "action"
  | .building => "structure"
  | .memory => "memory"
  | .task => "task"
  | .custom => "custom"

deriving instance BEq for Json.Value

/-- A kind of node that is not built in. -/
structure Kind.Custom where
  kind : String
  settings : Json.Value
  deriving BEq

/-- What a node does, with its settings. -/
inductive Kind where
  | start
  | branch
  | switch (settings : Kind.Switch)
  | loop (settings : Kind.Loop)
  | attempt
  | tick (settings : Kind.Tick)
  | fanOut
  | merge
  | return (settings : Kind.Return)
  | break
  | continue
  | search (settings : Kind.Search)
  | byId (settings : Kind.ById)
  | look (settings : Kind.Look)
  | best (settings : Kind.Best)
  | move (settings : Kind.Move)
  | harvest (settings : Kind.Work)
  | transfer (settings : Kind.Transfer)
  | withdraw (settings : Kind.Withdraw)
  | build (settings : Kind.Work)
  | repair (settings : Kind.Work)
  | upgrade (settings : Kind.Target)
  | attack (settings : Kind.Target)
  | heal (settings : Kind.Target)
  | spawn (settings : Kind.Spawn)
  | link (settings : Kind.Link)
  | market (settings : Kind.Market)
  | tower (settings : Kind.Tower)
  | memoryRead (settings : Kind.Memory)
  | memoryWrite (settings : Kind.Memory)
  | memoryDelete (settings : Kind.Memory)
  | taskDefine (settings : Kind.TaskDefine)
  | taskCall (settings : Kind.TaskCall)
  | custom (node : Kind.Custom)
  deriving BEq

namespace Kind

/-- How a custom kind is read and written. -/
def Custom.record : Record Custom where
  name := "CustomNode"
  fields := [
    .required "kind" .text (·.kind) fun record kind => { record with kind },
    .required "settings" .value (·.settings) fun record settings => { record with settings }]
  blank := ⟨"", .null⟩

/-- A built-in kind before its settings are known. -/
structure Shape where
  name : String
  read : Origin → Json.Value → Except Failure Kind
  blank : Kind

/-- The shape of a kind whose settings form a record. -/
def Shape.of {σ : Type} (name : String) (record : Record σ) (wrap : σ → Kind) : Shape where
  name := name
  read := fun origin settings => wrap <$> record.codec.read origin settings
  blank := wrap record.blank

/-- The built-in kinds. -/
def shapes : List Shape := [
  .of "start" emptyRecord fun _ => .start,
  .of "flow.if" emptyRecord fun _ => .branch,
  .of "flow.switch" Switch.record .switch,
  .of "flow.loop" Loop.record .loop,
  .of "flow.try" emptyRecord fun _ => .attempt,
  .of "flow.tick" Tick.record .tick,
  .of "flow.fanout" emptyRecord fun _ => .fanOut,
  .of "flow.merge" emptyRecord fun _ => .merge,
  .of "flow.return" Return.record .return,
  .of "flow.break" emptyRecord fun _ => .break,
  .of "flow.continue" emptyRecord fun _ => .continue,
  .of "query.search" Search.record .search,
  .of "query.byId" ById.record .byId,
  .of "query.look" Look.record .look,
  .of "query.best" Best.record .best,
  .of "action.move" Move.record .move,
  .of "action.harvest" Work.record .harvest,
  .of "action.transfer" Transfer.record .transfer,
  .of "action.withdraw" Withdraw.record .withdraw,
  .of "action.build" Work.record .build,
  .of "action.repair" Work.record .repair,
  .of "action.upgrade" Target.record .upgrade,
  .of "action.attack" Target.record .attack,
  .of "action.heal" Target.record .heal,
  .of "structure.spawn" Spawn.record .spawn,
  .of "structure.link" Link.record .link,
  .of "structure.market" Market.record .market,
  .of "structure.tower" Tower.record .tower,
  .of "memory.read" Memory.record .memoryRead,
  .of "memory.write" Memory.record .memoryWrite,
  .of "memory.delete" Memory.record .memoryDelete,
  .of "task.define" TaskDefine.record .taskDefine,
  .of "task.call" TaskCall.record .taskCall]

/-- The names of the built-in kinds. -/
def builtinNames : List String := shapes.map (·.name)

/-- Whether a name is that of a built-in kind. -/
def isBuiltin (name : String) : Bool := builtinNames.contains name

/-- The built-in kind of a name. -/
def shape? (name : String) : Option Shape := shapes.find? (·.name == name)

/-- The built-in kind of a name with settings read from a value. -/
def ofSettings (name : String) (settings : Json.Value) : Option (Except Failure Kind) :=
  (shape? name).map fun shape => shape.read .direct settings

/-- The built-in kind of a name with the settings that it has when none are given. -/
def withDefaults (name : String) : Option Kind :=
  (shape? name).map (·.blank)

/-- The name that tells how the settings of a kind are read. -/
def tag : Kind → String
  | .start => "start"
  | .branch => "flow.if"
  | .switch _ => "flow.switch"
  | .loop _ => "flow.loop"
  | .attempt => "flow.try"
  | .tick _ => "flow.tick"
  | .fanOut => "flow.fanout"
  | .merge => "flow.merge"
  | .return _ => "flow.return"
  | .break => "flow.break"
  | .continue => "flow.continue"
  | .search _ => "query.search"
  | .byId _ => "query.byId"
  | .look _ => "query.look"
  | .best _ => "query.best"
  | .move _ => "action.move"
  | .harvest _ => "action.harvest"
  | .transfer _ => "action.transfer"
  | .withdraw _ => "action.withdraw"
  | .build _ => "action.build"
  | .repair _ => "action.repair"
  | .upgrade _ => "action.upgrade"
  | .attack _ => "action.attack"
  | .heal _ => "action.heal"
  | .spawn _ => "structure.spawn"
  | .link _ => "structure.link"
  | .market _ => "structure.market"
  | .tower _ => "structure.tower"
  | .memoryRead _ => "memory.read"
  | .memoryWrite _ => "memory.write"
  | .memoryDelete _ => "memory.delete"
  | .taskDefine _ => "task.define"
  | .taskCall _ => "task.call"
  | .custom _ => "custom"

/-- The name of a kind. -/
def name : Kind → String
  | .custom node => node.kind
  | kind => kind.tag

/-- The group of a kind. -/
def family : Kind → Family
  | .start | .branch | .switch _ | .loop _ | .attempt | .tick _ | .fanOut | .merge
  | .return _ | .break | .continue => .flow
  | .search _ | .byId _ | .look _ | .best _ => .query
  | .move _ | .harvest _ | .transfer _ | .withdraw _ | .build _ | .repair _ | .upgrade _
  | .attack _ | .heal _ => .action
  | .spawn _ | .link _ | .market _ | .tower _ => .building
  | .memoryRead _ | .memoryWrite _ | .memoryDelete _ => .memory
  | .taskDefine _ | .taskCall _ => .task
  | .custom _ => .custom

/-- The settings of a kind as a value. -/
def settings : Kind → Json.Value
  | .start | .branch | .attempt | .fanOut | .merge | .break | .continue =>
    emptyRecord.codec.write ()
  | .switch settings => Switch.record.codec.write settings
  | .loop settings => Loop.record.codec.write settings
  | .tick settings => Tick.record.codec.write settings
  | .return settings => Return.record.codec.write settings
  | .search settings => Search.record.codec.write settings
  | .byId settings => ById.record.codec.write settings
  | .look settings => Look.record.codec.write settings
  | .best settings => Best.record.codec.write settings
  | .move settings => Move.record.codec.write settings
  | .harvest settings | .build settings | .repair settings => Work.record.codec.write settings
  | .transfer settings => Transfer.record.codec.write settings
  | .withdraw settings => Withdraw.record.codec.write settings
  | .upgrade settings | .attack settings | .heal settings => Target.record.codec.write settings
  | .spawn settings => Spawn.record.codec.write settings
  | .link settings => Link.record.codec.write settings
  | .market settings => Market.record.codec.write settings
  | .tower settings => Tower.record.codec.write settings
  | .memoryRead settings | .memoryWrite settings | .memoryDelete settings =>
    Memory.record.codec.write settings
  | .taskDefine settings => TaskDefine.record.codec.write settings
  | .taskCall settings => TaskCall.record.codec.write settings
  | .custom node => Custom.record.codec.write node

/-- The inputs that have to be connected, because the settings say nothing in their place. -/
def requiredInputs : Kind → List String
  | .branch => ["condition"]
  | .switch _ => ["value"]
  | .best _ => ["list"]
  | .byId settings => if settings.id.isNone then ["id"] else []
  | .move settings => if settings.target.isUndefined then ["target"] else []
  | .attack settings | .heal settings => if settings.target.isUndefined then ["target"] else []
  | .link settings =>
    (if settings.source.isNone then ["source"] else []) ++
      (if settings.target.isNone then ["target"] else [])
  | .memoryWrite settings => if settings.value.isUndefined then ["value"] else []
  | _ => []

/-- The shape that a tag names: that of a built-in kind, or of all custom ones. -/
def customShape : Shape := .of "custom" Custom.record .custom

/-- The shapes by their tags. -/
def taggedShapes : List Shape := shapes ++ [customShape]

/-- The tags of kinds. -/
def tagChoice : Choice Shape where
  all := taggedShapes
  name := (·.name)

/-- A kind is an object with its tag under `kind` and its settings under `config`. Members are read
in the order in which they stand, so settings that stand before the tag are set aside until it is
known. An array holds the tag and the settings in this order. -/
def read (value : Json.Value) : Except Failure Kind :=
  match value with
  | .object members =>
    match members.filter fun member => member.1 == "kind" || member.1 == "config" with
    | [("config", settings), ("kind", tag)] => do
      let shape ← tagChoice.codec.read .direct tag
      shape.read .buffered settings
    | [("kind", tag), ("config", settings)] => do
      let shape ← tagChoice.codec.read .direct tag
      shape.read .direct settings
    | [("kind", tag)] => do
      let _ ← tagChoice.codec.read .direct tag
      throw (.missing "config")
    | _ => .error (.missing "kind")
  | .array [] => .error (.wrongLength 0 (.tagged "NodeKind"))
  | .array [tag] => do
    let _ ← tagChoice.codec.read .direct tag
    throw (.wrongLength 1 (.tagged "NodeKind"))
  | .array (tag :: settings :: rest) => do
    let shape ← tagChoice.codec.read .direct tag
    let kind ← shape.read .direct settings
    if rest.isEmpty then return kind
    else throw (.wrongLength (rest.length + 2) .fewerItems)
  | _ => Codec.mismatch value (.tagged "NodeKind")

/-- How a kind is read and written. -/
def codec : Codec Kind where
  read := fun _ value => read value
  write := fun kind => .object [("kind", .text kind.tag), ("config", kind.settings)]

end Kind

end TickScript
