import TickScript.Emission.Flow
import TickScript.Proofs.Emission.Composition

/-!
# How many values statements record

A node has a value from the moment on at which its statements record one. `Emit.Records` counts the
values that an action records. The statements of every kind that writes no slots record one value or
none, whatever the inputs and settings are, and the proofs go along the actions of each emitter.
-/

namespace TickScript

namespace Emission.Emit

/-- An action records a number of values, whatever the context is. -/
def Records {α : Type} (count : Nat) (action : Emit α) : Prop :=
  ∀ context : Context, (action.run context).2.values.length = context.values.length + count

variable {α β : Type} {count : Nat} {node : Node}

namespace Records

theorem pure (value : α) : Records 0 (Pure.pure value : Emit α) := fun _ => rfl

/-- An action before which no value is recorded, whose results are all of some sort. -/
theorem laterOf {action : Emit α} {next : α → Emit β} (haction : Records 0 action)
    (sort : α → Prop) (hsort : ∀ context : Context, sort (action.run context).1)
    (hnext : ∀ value, sort value → Records count (next value)) :
    Records count (action >>= next) := by
  intro context
  have hrun : ((action >>= next).run context).2.values.length =
      (action.run context).2.values.length + count := hnext _ (hsort context) _
  rw [hrun, haction context, Nat.add_zero]

/-- An action before which no value is recorded. -/
theorem later {action : Emit α} {next : α → Emit β} (haction : Records 0 action)
    (hnext : ∀ value, Records count (next value)) : Records count (action >>= next) :=
  haction.laterOf (fun _ => True) (fun _ => trivial) fun value _ => hnext value

/-- An action after which no value is recorded. -/
theorem before {action : Emit α} {next : α → Emit β} (haction : Records count action)
    (hnext : ∀ value, Records 0 (next value)) : Records count (action >>= next) := by
  intro context
  have hrun : ((action >>= next).run context).2.values.length =
      (action.run context).2.values.length + 0 := hnext _ _
  rw [hrun, haction context, Nat.add_zero]

theorem say (text : String) : Records 0 (Emit.say text) := fun _ => rfl

theorem fresh (stem : String) : Records 0 (Emit.fresh stem) := fun _ => rfl

theorem require (symbol module : String) : Records 0 (Emit.require symbol module) := fun _ => rfl

theorem warn (nodeId message : String) : Records 0 (Emit.warn nodeId message) := fun _ => rfl

theorem actor : Records 0 Emit.actor := fun _ => rfl

theorem actorMember (member : String) : Records 0 (Emit.actorMember member) :=
  actor.later fun _ => .pure _

theorem input (node : Node) (name : String) (fallback : Literal) :
    Records 0 (Emit.input node name fallback) := fun context =>
  congrArg List.length (input_values node name fallback context)

theorem optionalInput (node : Node) (name : String) (fallback : Literal) :
    Records 0 (Emit.optionalInput node name fallback) :=
  (input node name fallback).later fun _ => .pure _

theorem actorInput (node : Node) : Records 0 (Emit.actorInput node) :=
  actor.later fun _ => .input _ _ _

theorem hold (stem expr : String) : Records 0 (Emit.bind stem expr) := by
  unfold Emit.bind
  split
  · exact .pure _
  · exact (fresh stem).later fun _ => (say _).later fun _ => .pure _

theorem block (header : String) {body : Emit α} (hbody : Records count body) :
    Records count (Emit.block header body) := fun context =>
  hbody (context.push (header ++ " \x7b")).enter

theorem produce (nodeId expr : String) : Records 1 (Emit.produce nodeId expr) := fun _ => rfl

theorem define (node : Node) (stem expr : String) : Records 1 (Emit.define node stem expr) :=
  (fresh stem).later fun _ => (say _).later fun _ => (produce _ _).before fun _ => .pure _

/-- A constant is defined last. -/
theorem defineLast (node : Node) (stem expr : String) :
    Records 1 (do let _ ← Emit.define node stem expr) :=
  (define node stem expr).before fun _ => .pure _

/-- Something is done first if a condition is met. -/
theorem guarded {condition : Prop} [Decidable condition] {first : Emit PUnit}
    {rest : PUnit → Emit α} (hfirst : Records 0 first) (hrest : ∀ done, Records count (rest done)) :
    Records count (if condition then first >>= rest else rest ⟨⟩) := by
  split
  · exact hfirst.later hrest
  · exact hrest _

/-- The same for every item of a list. -/
theorem forM {items : List α} {action : α → Emit PUnit} (h : ∀ item, Records 0 (action item)) :
    Records 0 (items.forM action) := by
  induction items with
  | nil => exact .pure _
  | cons item items ih => exact (h item).later fun _ => ih

end Records

end Emission.Emit

namespace Kind

open Emission Emission.Emit

variable {node : Node}

/-! ## Queries -/

theorem Search.call_records (settings : Search) (room : String) :
    Records 0 (settings.call room) := by
  unfold Search.call
  dsimp only
  split
  · exact .pure _
  · exact (Records.fresh _).later fun _ => .pure _

theorem Search.emit_records (settings : Search) : Records 1 (settings.emit node) :=
  (Records.actorMember _).later fun _ => (Records.input _ _ _).later fun room =>
    (settings.call_records room).later fun _ => .defineLast _ _ _

theorem ById.emit_records (settings : ById) : Records 1 (settings.emit node) :=
  (Records.input _ _ _).later fun _ => .defineLast _ _ _

theorem Look.emit_records (settings : Look) : Records 1 (settings.emit node) := by
  refine (Records.actorMember _).later fun _ => (Records.input _ _ _).later fun _ => ?_
  refine (Records.fresh _).later fun name => ?_
  cases settings.mode with
  | point => exact (Records.say _).later fun _ => .produce _ _
  | area =>
      exact (Records.input _ _ _).later fun _ => (Records.hold _ _).later fun _ =>
        (Records.say _).later fun _ => .produce _ _

theorem Best.emitClosest_records (settings : Best) (list : String) :
    Records 0 (settings.emitClosest node list) :=
  (Records.actorMember _).later fun _ => (Records.input _ _ _).later fun _ =>
    (Records.require _ _).later fun _ => (Records.fresh _).later fun _ =>
      (Records.say _).later fun _ => .pure _

theorem Best.emitExtreme_records (settings : Best) (list : String) :
    Records 0 (settings.emitExtreme list) := by
  refine (Records.fresh _).later fun best => (Records.fresh _).later fun score => ?_
  refine (Records.fresh _).later fun candidate => (Records.fresh _).later fun value => ?_
  refine (Records.say _).later fun _ => (Records.say _).later fun _ =>
    (Records.block _ ?_).later fun _ => .pure _
  exact (Records.say _).later fun _ => (Records.say _).later fun _ =>
    .block _ ((Records.say _).later fun _ => .say _)

theorem Best.emit_records (settings : Best) : Records 1 (settings.emit node) := by
  refine (Records.input _ _ _).later fun list => ?_
  cases settings.strategy with
  | range | path => exact (settings.emitClosest_records list).later fun _ => .produce _ _
  | min | max => exact (settings.emitExtreme_records list).later fun _ => .produce _ _

/-! ## Actions -/

theorem targetInput_records (configured : Literal) (defaultTarget : Option String)
    (actor : String) : Records 0 (targetInput node configured defaultTarget actor) :=
  .input _ _ _

theorem approach_records (result actor target : String) :
    Records 0 (approach result actor target) :=
  (Records.require _ _).later fun _ => .block _ (.say _)

theorem Move.emit_records (settings : Move) : Records 1 (settings.emit node) :=
  (Records.actorInput _).later fun _ => (targetInput_records _ _ _).later fun _ =>
    (Records.require _ _).later fun _ => .defineLast _ _ _

theorem Work.emit_records (settings : Work) (form : ActionForm) :
    Records 1 (settings.emit form node) := by
  refine (Records.actorInput _).later fun actor => (targetInput_records _ _ _).later fun target => ?_
  cases settings.moveCloser with
  | true =>
      exact (Records.hold _ _).later fun _ => (Records.define _ _ _).before fun _ =>
        approach_records _ _ _
  | false =>
      exact (Records.pure target).later fun _ => (Records.define _ _ _).before fun _ => .pure _

theorem Target.emit_records (settings : Target) (form : ActionForm) :
    Records 1 (settings.emit form node) :=
  (Records.actorInput _).later fun _ => (targetInput_records _ _ _).later fun _ =>
    .defineLast _ _ _

theorem Transfer.emit_records (settings : Transfer) : Records 1 (settings.emit node) := by
  refine (Records.actorInput _).later fun actor => (targetInput_records _ _ _).later fun target => ?_
  cases settings.fallback with
  | move =>
      exact (Records.hold _ _).later fun _ => (Records.define _ _ _).before fun _ =>
        approach_records _ _ _
  | none =>
      exact (Records.pure target).later fun _ => (Records.define _ _ _).before fun _ => .pure _
  | drop =>
      exact (Records.pure target).later fun _ => (Records.define _ _ _).before fun _ =>
        .block _ (.say _)

theorem Withdraw.emit_records (settings : Withdraw) : Records 1 (settings.emit node) :=
  (Records.actorInput _).later fun _ => (targetInput_records _ _ _).later fun _ =>
    (Records.hold _ _).later fun _ => (Records.define _ _ _).before fun _ => approach_records _ _ _

/-! ## Structures -/

theorem Link.emit_records (settings : Link) : Records 1 (settings.emit node) :=
  (Records.input _ _ _).later fun _ => (Records.input _ _ _).later fun _ =>
    (Records.hold _ _).later fun _ => .defineLast _ _ _

theorem Market.orderCall_records (settings : Market) (terminal : String) (amount : Literal) :
    Records 0 (settings.orderCall node terminal amount) :=
  (Records.optionalInput _ _ _).later fun _ => .pure _

theorem Market.dealCall_records (settings : Market) (terminal : String) (amount : Literal) :
    Records 0 (settings.dealCall node terminal amount) :=
  (Records.optionalInput _ _ _).later fun _ => .guarded (.warn _ _) fun _ => .pure _

theorem Market.emit_records (settings : Market) : Records 1 (settings.emit node) := by
  refine (Records.actorMember _).later fun _ => (Records.input _ _ _).later fun _ => ?_
  refine (Records.hold _ _).later fun terminal => (Records.optionalInput _ _ _).later fun amount => ?_
  have hresult (call : String) : Records 1 (do
      let result ← Emit.fresh "market"
      Emit.say s!"let {result} = ERR_NOT_FOUND;"
      Emit.block s!"if ({terminal})" do
        Emit.say s!"{result} = {call};"
      Emit.produce node.id result) :=
    (Records.fresh _).later fun _ => (Records.say _).later fun _ =>
      (Records.block _ (.say _)).later fun _ => .produce _ _
  cases settings.mode with
  | buy | sell => exact (settings.orderCall_records _ _).later hresult
  | deal => exact (settings.dealCall_records _ _).later hresult

theorem Tower.emitAction_records (settings : Tower) (tower chosen target : String)
    (action : TowerAction) : Records 0 (settings.emitAction tower chosen target action) :=
  .block _ <| .guarded (.say _) fun _ => (Records.say _).later fun _ => .say _

theorem Tower.emit_records (settings : Tower) : Records 1 (settings.emit node) := by
  refine (Records.actorMember _).later fun _ => (Records.input _ _ _).later fun room => ?_
  refine .guarded (.warn _ _) fun _ => (Records.fresh _).later fun towers => ?_
  refine (Records.fresh _).later fun tower => (Records.fresh _).later fun chosen => ?_
  refine (Records.fresh _).later fun target => (Records.say _).later fun _ => ?_
  refine (Records.block _ (.block _ ?_)).later fun _ => .produce _ _
  exact .forM (settings.emitAction_records tower chosen target)

namespace Spawn

/-! ## Spawns -/

theorem emitFixed_records (settings : Spawn) : Records 0 settings.emitFixed :=
  (Records.fresh _).later fun _ => (Records.say _).later fun _ => .pure _

theorem emitFilled_records (settings : Spawn) (weights : List (BodyPart × Nat)) (spawn : String) :
    Records 0 (settings.emitFilled weights spawn) := by
  refine (Records.fresh _).later fun body => (Records.fresh _).later fun budget => ?_
  refine (Records.fresh _).later fun added => (Records.say _).later fun _ => ?_
  refine (Records.say _).later fun _ => (Records.say _).later fun _ => ?_
  refine (Records.block _ ?_).later fun _ => (Records.say _).later fun _ => .pure _
  refine (Records.say _).later fun _ => .block _ (.block _ ?_)
  exact (Records.say _).later fun _ => (Records.say _).later fun _ =>
    (Records.say _).later fun _ => .say _

theorem emitWeighted_records (settings : Spawn) (spawn : String) :
    Records 0 (settings.emitWeighted node spawn) := by
  unfold emitWeighted
  dsimp only
  split
  · exact (Records.warn _ _).later fun _ => settings.emitFixed_records
  · exact settings.emitFilled_records _ spawn

theorem emitSelection_records (settings : Spawn) (spawn : String) (lowest : Nat) :
    Records 0 (settings.emitSelection node spawn lowest) := by
  refine (Records.input _ _ _).later fun level => (Records.fresh _).later fun presets => ?_
  refine (Records.fresh _).later fun tier => (Records.fresh _).later fun body => ?_
  exact (Records.say _).later fun _ => (Records.say _).later fun _ =>
    (Records.block _ (.say _)).later fun _ => (Records.say _).later fun _ => .pure _

theorem emitPreset_records (settings : Spawn) (spawn : String) :
    Records 0 (settings.emitPreset node spawn) := by
  unfold emitPreset
  split
  · exact (Records.warn _ _).later fun _ => settings.emitFixed_records
  · split
    · exact (Records.fresh _).later fun _ => (Records.say _).later fun _ => .pure _
    · exact settings.emitSelection_records spawn _

theorem emit_records (settings : Spawn) : Records 1 (settings.emit node) := by
  refine (Records.input _ _ _).later fun _ => (Records.hold _ _).later fun spawn => ?_
  have hspawned (body : String) : Records 1 (do
      let name ← Emit.input node "name" (.text s!"{Text.quote settings.name} + Game.time")
      let memory ← Emit.input node "memory" (memoryTemplate settings.memory)
      let _ ← Emit.define node "spawned"
        s!"{Text.atom spawn}.spawnCreep({body}, {name}, \x7b memory: {memory} \x7d)") :=
    (Records.input _ _ _).later fun _ => (Records.input _ _ _).later fun _ => .defineLast _ _ _
  cases settings.body with
  | fixed => exact settings.emitFixed_records.later hspawned
  | weighted => exact (settings.emitWeighted_records spawn).later hspawned
  | preset => exact (settings.emitPreset_records spawn).later hspawned

end Spawn

/-! ## Memory and tasks -/

namespace Memory

theorem locate_records (settings : Memory) : Records 0 (settings.locate node) := by
  unfold locate
  cases settings.scope with
  | global => exact .pure _
  | room =>
      exact (Records.actorMember _).later fun _ => (Records.input _ _ _).later fun _ =>
        (Records.hold _ _).later fun _ => .pure _
  | actor => exact (Records.actorInput _).later fun _ => .pure _

theorem emitRead_records (settings : Memory) : Records 1 (settings.emitRead node) :=
  settings.locate_records.later fun _ => (Records.input _ _ _).later fun _ => .defineLast _ _ _

theorem emitStore_records (settings : Memory) (location : Location) (value : String) :
    Records 0 (settings.emitStore location value) := by
  unfold emitStore
  dsimp only
  split
  · exact (Records.fresh _).later fun _ => (Records.say _).later fun _ => .say _
  · exact .say _

/-- A location has path keys if the path that is set has segments. -/
theorem locate_pathKeys (settings : Memory) (context : Context) :
    ((settings.locate node).run context).1.pathKeys.isEmpty =
      (Text.splitPath settings.path).isEmpty := by
  have hkeys : ((settings.locate node).run context).1.pathKeys =
      (Text.splitPath settings.path).map Text.quote := by
    unfold locate
    cases settings.scope <;> rfl
  rw [hkeys, List.isEmpty_map]

/-- How many values a node records that changes the memory: none if its path has no segments. -/
def stored (settings : Memory) : Nat := if (Text.splitPath settings.path).isEmpty then 0 else 1

theorem emitWrite_records (settings : Memory) :
    Records settings.stored (settings.emitWrite node) := by
  refine settings.locate_records.laterOf (·.pathKeys.isEmpty = (Text.splitPath settings.path).isEmpty)
    settings.locate_pathKeys fun location hkeys => ?_
  rw [hkeys, stored]
  split
  · exact .warn _ _
  · exact (Records.input _ _ _).later fun _ => (Records.hold _ _).later fun _ =>
      (Records.forM fun _ => .say _).later fun _ =>
        (settings.emitStore_records _ _).later fun _ => .produce _ _

theorem emitDelete_records (settings : Memory) :
    Records settings.stored (settings.emitDelete node) := by
  refine settings.locate_records.laterOf (·.pathKeys.isEmpty = (Text.splitPath settings.path).isEmpty)
    settings.locate_pathKeys fun location hkeys => ?_
  rw [hkeys, stored]
  split
  · exact .warn _ _
  · exact (Records.say _).later fun _ => .produce _ _

end Memory

theorem TaskCall.emit_records (settings : TaskCall) : Records 1 (settings.emit node) :=
  (Records.actorInput _).later fun _ => (Records.input _ _ _).later fun _ => .defineLast _ _ _

theorem Return.emit_records (settings : Return) : Records 0 (settings.emit node) := by
  unfold Return.emit
  split
  · exact .say _
  · exact (Records.input _ _ _).later fun _ => .say _

end Kind

end TickScript
