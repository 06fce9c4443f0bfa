import TickScript.Emission.Flow
import TickScript.Emission.Step

/-!
# The walk

`Walk.walk` writes a node and everything that its flow outputs lead to. Slots are written before
outputs, and what several slots of a node lead to is written once after them. `dispatch` chooses the
statements of a node by its kind.
-/

namespace TickScript.Emission

/-- What the nodes of a program are written with. -/
structure Setting where
  table : NodeTable
  registry : Registry := .empty

/-- Write a node of a custom kind by its emitter, or warn that there is none. -/
def emitCustom (setting : Setting) (branch : List String → Walk Unit) (node : Node)
    (custom : Kind.Custom) : Walk Continuation :=
  match setting.registry.get? custom.kind with
  | some emitter => (emitter.emit node custom.settings).run setting.registry branch
  | none => do
    let kind := custom.kind
    Walk.lift (Emit.warn node.id s!"no emitter implemented for kind {kind}")
    return .outputs

/-- The statements of a node, and what follows it. -/
def dispatch (setting : Setting) (branch : List String → Walk Unit) (node : Node) :
    Walk Continuation :=
  let statements (action : Emit Unit) : Walk Continuation := do
    Walk.lift action
    return .outputs
  let construct (action : Walk Unit) : Walk Continuation := do
    action
    return .outputs
  let last (action : Emit Unit) : Walk Continuation := do
    Walk.lift action
    return .stop
  match node.kind with
  | .start | .merge => return .outputs
  | .branch => construct (Kind.emitBranch branch node)
  | .switch settings => construct (settings.emit branch node)
  | .loop settings => construct (settings.emit branch node)
  | .attempt => construct (Kind.emitAttempt branch node)
  | .tick settings => construct (settings.emit branch node)
  | .fanOut => construct (Kind.emitFanOut branch node)
  | .return settings => last (settings.emit node)
  | .break => last (Emit.say "break;")
  | .continue => last (Emit.say "continue;")
  | .search settings => statements (settings.emit node)
  | .byId settings => statements (settings.emit node)
  | .look settings => statements (settings.emit node)
  | .best settings => statements (settings.emit node)
  | .move settings => statements (settings.emit node)
  | .harvest settings => statements (settings.emit .harvest node)
  | .build settings => statements (settings.emit .build node)
  | .repair settings => statements (settings.emit .repair node)
  | .transfer settings => statements (settings.emit node)
  | .withdraw settings => statements (settings.emit node)
  | .upgrade settings => statements (settings.emit .upgrade node)
  | .attack settings => statements (settings.emit .attack node)
  | .heal settings => statements (settings.emit .heal node)
  | .spawn settings => statements (settings.emit node)
  | .link settings => statements (settings.emit node)
  | .market settings => statements (settings.emit node)
  | .tower settings => statements (settings.emit node)
  | .memoryRead settings => statements (settings.emitRead node)
  | .memoryWrite settings => statements (settings.emitWrite node)
  | .memoryDelete settings => statements (settings.emitDelete node)
  | .taskDefine _ => return .stop
  | .taskCall settings => statements (settings.emit node)
  | .custom custom => emitCustom setting branch node custom

namespace Walk

/-- What several slots of a node lead to; a node without branches has nothing of the kind. -/
def sharedAfter (setting : Setting) (visited : List String) (node : Node) : List String :=
  if node.hasBranches then sharedContinuations setting.table visited node else []

/-- Write the node under an id, and then what follows it. While its slots are written, its outputs
and what several slots lead to wait as join points. How chains are written is a parameter. -/
def write (setting : Setting) (follow : String → Walk Unit) (id : String) (node : Node) :
    Walk Unit := do
  let state ← get
  let shared := sharedAfter setting state.visited node
  let waiting := if node.hasBranches then node.outputs ++ shared else []
  set (state.suspend id shared waiting)
  let continuation ← dispatch setting (·.forM follow) node
  modify (·.resume id continuation state.joins)
  match continuation with
  | .outputs => (node.outputs ++ shared).forM follow
  | .stop => return

/-- Write the node under an id and all that follows it, unless it has been visited or waits as a
join point. The budget bounds how deep walks are nested. -/
def visit (setting : Setting) : Nat → String → Walk Unit
  | 0, _ => pure ()
  | budget + 1, id => do
    let state ← get
    if state.visited.contains id then return
    else if state.joins.contains id then set (state.note (.postponed id))
    else
      set (state.enter id)
      match setting.table.get? id with
      | some node => write setting (visit setting budget) id node
      | none => pure ()
      modify (·.note (.left id))

/-- Write the node under an id and all that follows it. Nested walks are at different nodes of the
table, but for the innermost, so they are never deeper than the table is large plus one. -/
def walk (setting : Setting) (id : String) : Walk Unit :=
  visit setting (setting.table.size + 1) id

/-- Write the nodes under several ids and all that follows them. -/
def branch (setting : Setting) (ids : List String) : Walk Unit :=
  ids.forM (walk setting)

end Walk

end TickScript.Emission
