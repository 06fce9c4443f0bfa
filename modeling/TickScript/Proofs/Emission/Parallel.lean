import TickScript.Proofs.Emission.Composition
import TickScript.Proofs.Keyed
import TickScript.Proofs.Walk.Course

/-!
# Statements in parallel

The statements of a node are put together from a few actions, and an id gets into them only in places
where it names a node: in warnings, in values that are recorded and in values that are asked for.
`Emit.Parallel` says this of an action by setting another one beside it, which does the same for the
node under another id. `Walk.Parallel` does so for control structures, where chains of nodes are
followed as well. `dispatch_parallel` covers all built-in kinds. What holds of the few actions is then
known of all statements by induction, whether it is about one run or about two.
-/

namespace TickScript

/-- Where an input comes from when nodes have other ids. -/
def Port.rename (rename : String → String) : Port → Port
  | .edge source port => .edge (rename source) port
  | .literal value => .literal value

namespace Node

/-- A node when nodes have other ids. -/
def rename (rename : String → String) (node : Node) : Node where
  id := rename node.id
  kind := node.kind
  inputs := node.inputs.mapValues (Port.rename rename)
  outputs := node.outputs.map rename
  slots := node.slots.mapValues (·.map rename)

/-- The heads of all slots of a node. -/
def children (node : Node) : List String := node.slots.values.flatten

theorem mem_children_of_slot (node : Node) {name id : String} (h : id ∈ node.slot name) :
    id ∈ node.children := by
  unfold slot at h
  cases hslot : node.slots.get? name with
  | none => simp [hslot] at h
  | some heads =>
      rw [hslot] at h
      exact List.mem_flatten.2 ⟨heads, Keyed.mem_values_of_get? hslot, h⟩

variable (rename : String → String) (node : Node)

@[simp] theorem input?_rename (name : String) :
    (node.rename rename).input? name = (node.input? name).map (Port.rename rename) :=
  Keyed.get?_mapValues _ _

@[simp] theorem slot_rename (name : String) :
    (node.rename rename).slot name = (node.slot name).map rename := by
  rw [slot, slot, Node.rename, Keyed.get?_mapValues]
  cases node.slots.get? name <;> rfl

end Node

namespace Emission

/-- A message tells of an input whose node has not recorded a value. -/
def TellsOfMissingValue (message : String) : Prop :=
  ∃ source port, message = missingValue source port

/-- The message about a missing value begins with a small letter that no other message begins with. -/
theorem not_tellsOfMissingValue {message : String} (h : message.toList.head? ≠ some 'i') :
    ¬ TellsOfMissingValue message := by
  rintro ⟨source, port, rfl⟩
  have hfirst : "input references node '".toList.head? = some 'i' := by decide
  have hmessage : missingValue source port = "input references node '" ++
      (source ++ ("' (port '" ++ (port ++ "') which has not produced a value"))) := by
    simp only [← String.append_assoc]
    rfl
  rw [hmessage, String.toList_append, List.head?_append, hfirst] at h
  exact h rfl

/-! ## Actions on contexts -/

/-- The library functions that statements call, each with its module. -/
def library : List (String × String) :=
  [("travelTo", Kind.movementModule), ("findClosestByRange", Kind.positionModule),
    ("findClosestByPath", Kind.positionModule)]

/-- Two actions do the same, one of them for a node and the other for the node under another id. -/
inductive Emit.Parallel (rename : String → String) (node : Node) :
    {α : Type} → Emit α → Emit α → Prop where
  | pure {α : Type} (value : α) : Parallel rename node (Pure.pure value) (Pure.pure value)
  | bind {α β : Type} {action action' : Emit α} {next next' : α → Emit β} :
      Parallel rename node action action' →
        (∀ value, Parallel rename node (next value) (next' value)) →
        Parallel rename node (action >>= next) (action' >>= next')
  | fresh (stem : String) : Parallel rename node (Emit.fresh stem) (Emit.fresh stem)
  | say (text : String) : Parallel rename node (Emit.say text) (Emit.say text)
  | enter : Parallel rename node (modify Context.enter) (modify Context.enter)
  | exit : Parallel rename node (modify Context.exit) (modify Context.exit)
  | require (symbol module : String) : (symbol, module) ∈ library →
      Parallel rename node (Emit.require symbol module) (Emit.require symbol module)
  | actor : Parallel rename node Emit.actor Emit.actor
  | warn (message : String) : ¬ TellsOfMissingValue message →
      Parallel rename node (Emit.warn node.id message) (Emit.warn (rename node.id) message)
  | input (name : String) (fallback : Literal) :
      Parallel rename node (Emit.input node name fallback)
        (Emit.input (node.rename rename) name fallback)
  | produce (expr : String) :
      Parallel rename node (Emit.produce node.id expr) (Emit.produce (rename node.id) expr)

variable {rename : String → String} {node : Node}

namespace Emit.Parallel

variable {α : Type}

theorem block (header : String) {body body' : Emit α} (h : Parallel rename node body body') :
    Parallel rename node (Emit.block header body) (Emit.block header body') :=
  .bind (.say _) fun _ => .bind .enter fun _ => .bind h fun _ => .bind .exit fun _ =>
    .bind (.say _) fun _ => .pure _

theorem hold (stem expr : String) :
    Parallel rename node (Emit.bind stem expr) (Emit.bind stem expr) := by
  unfold Emit.bind
  split
  · exact .pure _
  · exact .bind (.fresh stem) fun _ => .bind (.say _) fun _ => .pure _

theorem optionalInput (name : String) (fallback : Literal) :
    Parallel rename node (Emit.optionalInput node name fallback)
      (Emit.optionalInput (node.rename rename) name fallback) :=
  .bind (.input name fallback) fun _ => .pure _

theorem actorInput :
    Parallel rename node (Emit.actorInput node) (Emit.actorInput (node.rename rename)) :=
  .bind .actor fun _ => .input _ _

theorem actorMember (member : String) :
    Parallel rename node (Emit.actorMember member) (Emit.actorMember member) :=
  .bind .actor fun _ => .pure _

theorem define (stem expr : String) :
    Parallel rename node (Emit.define node stem expr)
      (Emit.define (node.rename rename) stem expr) :=
  .bind (.fresh stem) fun name => .bind (.say _) fun _ => .bind (.produce name) fun _ => .pure _

/-- Something is done first if a condition is met. -/
theorem guarded {condition : Prop} [Decidable condition] {first first' : Emit PUnit}
    {rest rest' : PUnit → Emit α} (hfirst : Parallel rename node first first')
    (hrest : ∀ done, Parallel rename node (rest done) (rest' done)) :
    Parallel rename node (if condition then first >>= rest else rest ⟨⟩)
      (if condition then first' >>= rest' else rest' ⟨⟩) := by
  split
  · exact .bind hfirst hrest
  · exact hrest _

/-- The same for every item of a list. -/
theorem forM {items : List α} {action action' : α → Emit PUnit}
    (h : ∀ item, Parallel rename node (action item) (action' item)) :
    Parallel rename node (items.forM action) (items.forM action') := by
  induction items with
  | nil => exact .pure _
  | cons item items ih => exact .bind (h item) fun _ => ih

end Emit.Parallel

end Emission

namespace Kind

open Emission Emission.Emit

variable {rename : String → String} {node : Node}

/-! ## Queries -/

theorem Search.call_parallel (settings : Search) (room : String) :
    Parallel rename node (settings.call room) (settings.call room) := by
  unfold Search.call
  dsimp only
  split
  · exact .pure _
  · exact .bind (.fresh _) fun _ => .pure _

theorem Search.emit_parallel (settings : Search) :
    Parallel rename node (settings.emit node) (settings.emit (node.rename rename)) :=
  .bind (.actorMember _) fun _ => .bind (.input _ _) fun room =>
    .bind (settings.call_parallel room) fun _ => .bind (.define _ _) fun _ => .pure _

theorem ById.emit_parallel (settings : ById) :
    Parallel rename node (settings.emit node) (settings.emit (node.rename rename)) :=
  .bind (.input _ _) fun _ => .bind (.define _ _) fun _ => .pure _

theorem Look.emit_parallel (settings : Look) :
    Parallel rename node (settings.emit node) (settings.emit (node.rename rename)) := by
  refine .bind (.actorMember _) fun _ => .bind (.input _ _) fun _ => .bind (.fresh _) fun name => ?_
  cases settings.mode with
  | point => exact .bind (.say _) fun _ => .produce name
  | area =>
      exact .bind (.input _ _) fun _ => .bind (.hold _ _) fun _ => .bind (.say _) fun _ =>
        .produce name

theorem Best.emitClosest_parallel (settings : Best) (list : String) :
    Parallel rename node (settings.emitClosest node list)
      (settings.emitClosest (node.rename rename) list) := by
  have hfinder : (settings.strategy.finder, positionModule) ∈ library := by
    cases settings.strategy <;> decide
  exact .bind (.actorMember _) fun _ => .bind (.input _ _) fun _ =>
    .bind (.require _ _ hfinder) fun _ => .bind (.fresh _) fun _ => .bind (.say _) fun _ => .pure _

theorem Best.emitExtreme_parallel (settings : Best) (list : String) :
    Parallel rename node (settings.emitExtreme list) (settings.emitExtreme list) := by
  refine .bind (.fresh _) fun best => .bind (.fresh _) fun score => ?_
  refine .bind (.fresh _) fun candidate => .bind (.fresh _) fun value => ?_
  refine .bind (.say _) fun _ => .bind (.say _) fun _ => .bind (.block _ ?_) fun _ => .pure _
  exact .bind (.say _) fun _ => .bind (.say _) fun _ =>
    .block _ (.bind (.say _) fun _ => .say _)

theorem Best.emit_parallel (settings : Best) :
    Parallel rename node (settings.emit node) (settings.emit (node.rename rename)) := by
  refine .bind (.input _ _) fun list => ?_
  cases settings.strategy with
  | range | path => exact .bind (settings.emitClosest_parallel list) fun best => .produce best
  | min | max => exact .bind (settings.emitExtreme_parallel list) fun best => .produce best

/-! ## Actions -/

theorem targetInput_parallel (configured : Literal) (defaultTarget : Option String)
    (actor : String) :
    Parallel rename node (targetInput node configured defaultTarget actor)
      (targetInput (node.rename rename) configured defaultTarget actor) :=
  .input _ _

theorem approach_parallel (result actor target : String) :
    Parallel rename node (approach result actor target) (approach result actor target) :=
  .bind (.require _ _ (by decide)) fun _ => .block _ (.say _)

theorem Move.emit_parallel (settings : Move) :
    Parallel rename node (settings.emit node) (settings.emit (node.rename rename)) :=
  .bind .actorInput fun _ => .bind (targetInput_parallel _ _ _) fun _ =>
    .bind (.require _ _ (by decide)) fun _ => .bind (.define _ _) fun _ => .pure _

theorem Work.emit_parallel (settings : Work) (form : ActionForm) :
    Parallel rename node (settings.emit form node) (settings.emit form (node.rename rename)) := by
  refine .bind .actorInput fun actor => .bind (targetInput_parallel _ _ _) fun target => ?_
  cases settings.moveCloser with
  | true =>
      exact .bind (.hold _ _) fun _ => .bind (.define _ _) fun _ => approach_parallel _ _ _
  | false => exact .bind (.pure target) fun _ => .bind (.define _ _) fun _ => .pure _

theorem Target.emit_parallel (settings : Target) (form : ActionForm) :
    Parallel rename node (settings.emit form node) (settings.emit form (node.rename rename)) :=
  .bind .actorInput fun _ => .bind (targetInput_parallel _ _ _) fun _ =>
    .bind (.define _ _) fun _ => .pure _

theorem Transfer.emit_parallel (settings : Transfer) :
    Parallel rename node (settings.emit node) (settings.emit (node.rename rename)) := by
  refine .bind .actorInput fun actor => .bind (targetInput_parallel _ _ _) fun target => ?_
  cases settings.fallback with
  | move =>
      exact .bind (.hold _ _) fun _ => .bind (.define _ _) fun _ => approach_parallel _ _ _
  | none => exact .bind (.pure target) fun _ => .bind (.define _ _) fun _ => .pure _
  | drop =>
      exact .bind (.pure target) fun _ => .bind (.define _ _) fun _ => .block _ (.say _)

theorem Withdraw.emit_parallel (settings : Withdraw) :
    Parallel rename node (settings.emit node) (settings.emit (node.rename rename)) :=
  .bind .actorInput fun _ => .bind (targetInput_parallel _ _ _) fun _ => .bind (.hold _ _) fun _ =>
    .bind (.define _ _) fun _ => approach_parallel _ _ _

/-! ## Structures -/

theorem Link.emit_parallel (settings : Link) :
    Parallel rename node (settings.emit node) (settings.emit (node.rename rename)) :=
  .bind (.input _ _) fun _ => .bind (.input _ _) fun _ => .bind (.hold _ _) fun _ =>
    .bind (.define _ _) fun _ => .pure _

theorem Market.orderCall_parallel (settings : Market) (terminal : String) (amount : Literal) :
    Parallel rename node (settings.orderCall node terminal amount)
      (settings.orderCall (node.rename rename) terminal amount) :=
  .bind (.optionalInput _ _) fun _ => .pure _

theorem Market.dealCall_parallel (settings : Market) (terminal : String) (amount : Literal) :
    Parallel rename node (settings.dealCall node terminal amount)
      (settings.dealCall (node.rename rename) terminal amount) := by
  refine .bind (.optionalInput _ _) fun order => ?_
  exact .guarded (.warn _ (not_tellsOfMissingValue (by decide))) fun _ => .pure _

theorem Market.emit_parallel (settings : Market) :
    Parallel rename node (settings.emit node) (settings.emit (node.rename rename)) := by
  refine .bind (.actorMember _) fun _ => .bind (.input _ _) fun _ => .bind (.hold _ _) fun terminal => ?_
  refine .bind (.optionalInput _ _) fun amount => ?_
  cases settings.mode <;>
    refine .bind ?_ fun call => .bind (.fresh _) fun result => .bind (.say _) fun _ =>
      .bind (.block _ (.say _)) fun _ => .produce result
  case buy | sell => exact settings.orderCall_parallel _ _
  case deal => exact settings.dealCall_parallel _ _

theorem Tower.emitAction_parallel (settings : Tower) (tower chosen target : String)
    (action : TowerAction) :
    Parallel rename node (settings.emitAction tower chosen target action)
      (settings.emitAction tower chosen target action) := by
  refine .block _ ?_
  split
  · exact .bind (.say _) fun _ => .bind (.say _) fun _ => .say _
  · exact .bind (.say _) fun _ => .say _

theorem Tower.emit_parallel (settings : Tower) :
    Parallel rename node (settings.emit node) (settings.emit (node.rename rename)) := by
  refine .bind (.actorMember _) fun _ => .bind (.input _ _) fun room => ?_
  refine .guarded (.warn _ (not_tellsOfMissingValue (by decide))) fun _ => ?_
  refine .bind (.fresh _) fun towers => .bind (.fresh _) fun tower => ?_
  refine .bind (.fresh _) fun chosen => .bind (.fresh _) fun target => .bind (.say _) fun _ => ?_
  refine .bind (.block _ (.block _ ?_)) fun _ => .produce towers
  exact .forM (settings.emitAction_parallel tower chosen target)

namespace Spawn

/-! ## Spawns -/

theorem emitFixed_parallel (settings : Spawn) :
    Parallel rename node settings.emitFixed settings.emitFixed :=
  .bind (.fresh _) fun _ => .bind (.say _) fun _ => .pure _

theorem emitFilled_parallel (settings : Spawn) (weights : List (BodyPart × Nat)) (spawn : String) :
    Parallel rename node (settings.emitFilled weights spawn)
      (settings.emitFilled weights spawn) := by
  refine .bind (.fresh _) fun body => .bind (.fresh _) fun budget => .bind (.fresh _) fun added => ?_
  refine .bind (.say _) fun _ => .bind (.say _) fun _ => .bind (.say _) fun _ => ?_
  refine .bind (.block _ ?_) fun _ => .bind (.say _) fun _ => .pure _
  refine .bind (.say _) fun _ => .block _ (.block _ ?_)
  exact .bind (.say _) fun _ => .bind (.say _) fun _ => .bind (.say _) fun _ => .say _

theorem emitWeighted_parallel (settings : Spawn) (spawn : String) :
    Parallel rename node (settings.emitWeighted node spawn)
      (settings.emitWeighted (node.rename rename) spawn) := by
  unfold emitWeighted
  dsimp only
  split
  · exact .bind (.warn _ (not_tellsOfMissingValue (by decide))) fun _ => settings.emitFixed_parallel
  · exact settings.emitFilled_parallel _ spawn

theorem emitSelection_parallel (settings : Spawn) (spawn : String) (lowest : Nat) :
    Parallel rename node (settings.emitSelection node spawn lowest)
      (settings.emitSelection (node.rename rename) spawn lowest) := by
  refine .bind (.input _ _) fun level => .bind (.fresh _) fun presets => ?_
  refine .bind (.fresh _) fun tier => .bind (.fresh _) fun body => ?_
  exact .bind (.say _) fun _ => .bind (.say _) fun _ => .bind (.block _ (.say _)) fun _ =>
    .bind (.say _) fun _ => .pure _

theorem emitPreset_parallel (settings : Spawn) (spawn : String) :
    Parallel rename node (settings.emitPreset node spawn)
      (settings.emitPreset (node.rename rename) spawn) := by
  unfold emitPreset
  rw [Node.input?_rename]
  cases settings.presets.keys with
  | nil =>
      exact .bind (.warn _ (not_tellsOfMissingValue (by decide))) fun _ => settings.emitFixed_parallel
  | cons lowest tiers =>
      cases settings.level with
      | none => exact settings.emitSelection_parallel spawn lowest
      | some level =>
          cases node.input? "level" with
          | none => exact .bind (.fresh _) fun _ => .bind (.say _) fun _ => .pure _
          | some port => exact settings.emitSelection_parallel spawn lowest

theorem emit_parallel (settings : Spawn) :
    Parallel rename node (settings.emit node) (settings.emit (node.rename rename)) := by
  refine .bind (.input _ _) fun _ => .bind (.hold _ _) fun spawn => ?_
  cases settings.body <;>
    refine .bind ?_ fun body => .bind (.input _ _) fun name => .bind (.input _ _) fun memory =>
      .bind (.define _ _) fun _ => .pure _
  case fixed => exact settings.emitFixed_parallel
  case weighted => exact settings.emitWeighted_parallel spawn
  case preset => exact settings.emitPreset_parallel spawn

end Spawn

/-! ## Memory and tasks -/

namespace Memory

theorem locate_parallel (settings : Memory) :
    Parallel rename node (settings.locate node) (settings.locate (node.rename rename)) := by
  unfold locate
  cases settings.scope with
  | global => exact .pure _
  | room =>
      exact .bind (.actorMember _) fun _ => .bind (.input _ _) fun _ => .bind (.hold _ _) fun _ =>
        .pure _
  | actor => exact .bind .actorInput fun _ => .pure _

theorem emitRead_parallel (settings : Memory) :
    Parallel rename node (settings.emitRead node) (settings.emitRead (node.rename rename)) := by
  unfold emitRead
  rw [Node.input?_rename, Option.isNone_map]
  exact .bind settings.locate_parallel fun _ => .bind (.input _ _) fun _ =>
    .bind (.define _ _) fun _ => .pure _

theorem emitStore_parallel (settings : Memory) (location : Location) (value : String) :
    Parallel rename node (settings.emitStore location value)
      (settings.emitStore location value) := by
  unfold emitStore
  dsimp only
  split
  · exact .bind (.fresh _) fun _ => .bind (.say _) fun _ => .say _
  · exact .say _

theorem emitWrite_parallel (settings : Memory) :
    Parallel rename node (settings.emitWrite node) (settings.emitWrite (node.rename rename)) := by
  refine .bind settings.locate_parallel fun location => ?_
  split
  · exact .warn _ (not_tellsOfMissingValue (by decide))
  · exact .bind (.input _ _) fun _ => .bind (.hold _ _) fun value =>
      .bind (.forM fun _ => .say _) fun _ => .bind (settings.emitStore_parallel location value) fun _ =>
        .produce value

theorem emitDelete_parallel (settings : Memory) :
    Parallel rename node (settings.emitDelete node) (settings.emitDelete (node.rename rename)) := by
  refine .bind settings.locate_parallel fun location => ?_
  split
  · exact .warn _ (not_tellsOfMissingValue (by decide))
  · exact .bind (.say _) fun _ => .produce _

end Memory

theorem TaskCall.emit_parallel (settings : TaskCall) :
    Parallel rename node (settings.emit node) (settings.emit (node.rename rename)) :=
  .bind .actorInput fun _ => .bind (.input _ _) fun _ => .bind (.define _ _) fun _ => .pure _

theorem Return.emit_parallel (settings : Return) :
    Parallel rename node (settings.emit node) (settings.emit (node.rename rename)) := by
  unfold Return.emit
  rw [Node.input?_rename, Option.isNone_map]
  split
  · exact .say _
  · exact .bind (.input _ _) fun _ => .say _

end Kind

/-! ## Actions of walks -/

namespace Emission

/-- Two actions of walks do the same, one of them for a node and the other for the node under another
id, and follow chains from the same heads of its slots. -/
inductive Walk.Parallel (rename : String → String) (node : Node) (follow follow' : String → Walk Unit) :
    {α : Type} → Walk α → Walk α → Prop where
  | pure {α : Type} (value : α) :
      Parallel rename node follow follow' (Pure.pure value) (Pure.pure value)
  | bind {α β : Type} {action action' : Walk α} {next next' : α → Walk β} :
      Parallel rename node follow follow' action action' →
        (∀ value, Parallel rename node follow follow' (next value) (next' value)) →
        Parallel rename node follow follow' (action >>= next) (action' >>= next')
  | lift {α : Type} {action action' : Emit α} : Emit.Parallel rename node action action' →
      Parallel rename node follow follow' (Walk.lift action) (Walk.lift action')
  | chain (id : String) : id ∈ node.children →
      Parallel rename node follow follow' (follow id) (follow' (rename id))

variable {rename : String → String} {node : Node} {follow follow' : String → Walk Unit}

namespace Walk.Parallel

variable {α : Type}

theorem say (text : String) :
    Parallel rename node follow follow' (Walk.say text) (Walk.say text) := .lift (.say text)

theorem indented {body body' : Walk α} (h : Parallel rename node follow follow' body body') :
    Parallel rename node follow follow' (Walk.indented body) (Walk.indented body') :=
  .bind (.lift .enter) fun _ => .bind h fun _ => .bind (.lift .exit) fun _ => .pure _

theorem block (header : String) {body body' : Walk α}
    (h : Parallel rename node follow follow' body body') :
    Parallel rename node follow follow' (Walk.block header body) (Walk.block header body') :=
  .bind (.say _) fun _ => .bind h.indented fun _ => .bind (.say _) fun _ => .pure _

/-- Chains from some of the heads. -/
theorem chains (ids : List String) (hids : ∀ id ∈ ids, id ∈ node.children) :
    Parallel rename node follow follow' (ids.forM follow) ((ids.map rename).forM follow') := by
  induction ids with
  | nil => exact .pure _
  | cons id ids ih =>
      obtain ⟨hid, hids⟩ := List.forall_mem_cons.1 hids
      exact .bind (.chain id hid) fun _ => ih hids

/-- The chains of a slot, by their new ids. -/
theorem heads (name : String) :
    Parallel rename node follow follow' ((node.slot name).forM follow)
      (((node.slot name).map rename).forM follow') :=
  chains _ fun _ => node.mem_children_of_slot

/-- The chains of a slot. -/
theorem slot (name : String) :
    Parallel rename node follow follow' ((node.slot name).forM follow)
      (((node.rename rename).slot name).forM follow') := by
  rw [Node.slot_rename]
  exact heads name

end Walk.Parallel

end Emission

namespace Kind

open Emission
open Walk (Parallel)

variable {rename : String → String} {node : Node} {follow follow' : String → Walk Unit}

theorem emitBranch_parallel : Parallel rename node follow follow'
    (emitBranch (·.forM follow) node) (emitBranch (·.forM follow') (node.rename rename)) := by
  unfold emitBranch
  refine .bind (.lift (.input _ _)) fun condition => .bind (.say _) fun _ => ?_
  refine .bind (.indented (.slot _)) fun _ => ?_
  rw [Node.slot_rename, List.isEmpty_map]
  dsimp only
  split
  · exact .bind (.say _) fun _ => .bind (.indented (.heads _)) fun _ => .say _
  · exact .say _

namespace Switch

theorem emitCases_parallel (index : Nat) (earlier : List Literal) (cases : List SwitchCase) :
    Parallel rename node follow follow' (emitCases (·.forM follow) node index earlier cases)
      (emitCases (·.forM follow') (node.rename rename) index earlier cases) := by
  induction cases generalizing index earlier with
  | nil => exact .pure _
  | cons case cases ih =>
      unfold emitCases
      dsimp only
      split
      · refine .bind (.lift (.warn _ ?_)) fun _ => ih _ _
        exact not_tellsOfMissingValue (by simp [toString])
      · exact .bind (.block _ (.bind (.slot _) fun _ => .say _)) fun _ => ih _ _

theorem emit_parallel (settings : Switch) : Parallel rename node follow follow'
    (settings.emit (·.forM follow) node) (settings.emit (·.forM follow') (node.rename rename)) :=
  .bind (.lift (.input _ _)) fun _ => .block _ <| .bind (emitCases_parallel _ _ _) fun _ =>
    .block _ <| .bind (.slot _) fun _ => .say _

end Switch

namespace Loop

theorem emitCounted_parallel (settings : Loop) (ran : String) : Parallel rename node follow follow'
    (settings.emitCounted (·.forM follow) node ran)
    (settings.emitCounted (·.forM follow') (node.rename rename) ran) := by
  have hloop (counter : String) : Parallel rename node follow follow'
      (Walk.block s!"for (let {counter} = 0; {counter} < {settings.maxIterations}; {counter}++)" do
        Walk.say s!"{ran} = true;"
        Walk.lift (Emit.produce node.id counter)
        (node.slot "body").forM follow)
      (Walk.block s!"for (let {counter} = 0; {counter} < {settings.maxIterations}; {counter}++)" do
        Walk.say s!"{ran} = true;"
        Walk.lift (Emit.produce (rename node.id) counter)
        ((node.rename rename).slot "body").forM follow') :=
    .block _ <| .bind (.say _) fun _ => .bind (.lift (.produce counter)) fun _ => .slot _
  unfold emitCounted
  dsimp only
  split
  · split
    · exact .bind (.pure _) hloop
    · exact .bind (.lift (.fresh _)) hloop
  · exact .bind (.lift (.fresh _)) hloop

theorem emitConditional_parallel (settings : Loop) (ran : String) :
    Parallel rename node follow follow' (settings.emitConditional (·.forM follow) node ran)
      (settings.emitConditional (·.forM follow') (node.rename rename) ran) := by
  refine .bind (.lift (.input _ _)) fun condition => .bind (.lift (.fresh _)) fun counter => ?_
  refine .bind (.say _) fun _ => .block _ <| .bind (.say _) fun _ => .bind (.say _) fun _ => ?_
  exact .bind (.say _) fun _ => .bind (.lift (.produce counter)) fun _ => .slot _

theorem emit_parallel (settings : Loop) : Parallel rename node follow follow'
    (settings.emit (·.forM follow) node) (settings.emit (·.forM follow') (node.rename rename)) := by
  refine .bind (.lift (.fresh _)) fun ran => .bind (.say _) fun _ => ?_
  rw [Node.slot_rename, List.isEmpty_map]
  have helse : Parallel rename node follow follow'
      (if !(node.slot "else").isEmpty then
        Walk.block s!"if (!{ran})" ((node.slot "else").forM follow)
      else pure ())
      (if !(node.slot "else").isEmpty then
        Walk.block s!"if (!{ran})" (((node.slot "else").map rename).forM follow')
      else pure ()) := by
    split
    · exact .block _ (.heads _)
    · exact .pure _
  cases settings.mode with
  | counted => exact .bind (settings.emitCounted_parallel ran) fun _ => helse
  | conditional => exact .bind (settings.emitConditional_parallel ran) fun _ => helse

end Loop

theorem emitAttempt_parallel : Parallel rename node follow follow'
    (emitAttempt (·.forM follow) node) (emitAttempt (·.forM follow') (node.rename rename)) := by
  unfold emitAttempt
  refine .bind (.say _) fun _ => .bind (.indented (.slot _)) fun _ => ?_
  refine .bind (.lift (.fresh _)) fun error => .bind (.say _) fun _ => ?_
  simp only [Node.slot_rename, List.isEmpty_map]
  refine .bind (.indented (.bind (.lift (.produce error)) fun _ => ?_)) fun _ => ?_
  · split
    · exact .say _
    · exact .heads _
  · split
    · exact .bind (.say _) fun _ => .bind (.indented (.heads _)) fun _ => .say _
    · exact .say _

theorem Tick.emit_parallel (settings : Tick) : Parallel rename node follow follow'
    (settings.emit (·.forM follow) node) (settings.emit (·.forM follow') (node.rename rename)) :=
  .bind (.lift (.define _ _)) fun _ => .block _ (.slot _)

theorem emitFanOut_parallel : Parallel rename node follow follow'
    (emitFanOut (·.forM follow) node) (emitFanOut (·.forM follow') (node.rename rename)) := by
  have hslots : ∀ entry ∈ node.slots.entries, ∀ id ∈ entry.2, id ∈ node.children :=
    fun entry hentry id hid => List.mem_flatten.2 ⟨_, List.mem_map_of_mem hentry, hid⟩
  unfold emitFanOut Node.rename Keyed.mapValues
  dsimp only
  generalize node.slots.entries = entries at hslots
  induction entries with
  | nil => exact .pure _
  | cons entry entries ih =>
      obtain ⟨hentry, hentries⟩ := List.forall_mem_cons.1 hslots
      exact .bind (.bind (.say _) fun _ => .chains _ hentry) fun _ => ih hentries

end Kind

namespace Emission

/-- The statements of a node do the same as those of the node under another id, unless emitters of a
registry write them. -/
theorem dispatch_parallel {rename : String → String} {node : Node} {follow follow' : String → Walk Unit}
    {setting setting' : Setting} (hplain : setting.isPlain node = true)
    (hplain' : setting'.isPlain (node.rename rename) = true) :
    Walk.Parallel rename node follow follow' (dispatch setting (·.forM follow) node)
      (dispatch setting' (·.forM follow') (node.rename rename)) := by
  have hemit {action action' : Emit Unit} (h : Emit.Parallel rename node action action')
      (continuation : Continuation) : Walk.Parallel rename node follow follow'
        (do Walk.lift action; return continuation) (do Walk.lift action'; return continuation) :=
    .bind (.lift h) fun _ => .pure _
  have hconstruct {action action' : Walk Unit}
      (h : Walk.Parallel rename node follow follow' action action') :
      Walk.Parallel rename node follow follow' (do action; return Continuation.outputs)
        (do action'; return Continuation.outputs) :=
    .bind h fun _ => .pure _
  have hkind' : (node.rename rename).kind = node.kind := rfl
  unfold dispatch
  rw [hkind']
  cases hkind : node.kind with
  | start | merge | taskDefine => exact .pure _
  | branch => exact hconstruct Kind.emitBranch_parallel
  | switch settings => exact hconstruct settings.emit_parallel
  | loop settings => exact hconstruct settings.emit_parallel
  | attempt => exact hconstruct Kind.emitAttempt_parallel
  | tick settings => exact hconstruct settings.emit_parallel
  | fanOut => exact hconstruct Kind.emitFanOut_parallel
  | «return» settings => exact hemit settings.emit_parallel _
  | «break» | «continue» => exact hemit (.say _) _
  | search settings => exact hemit settings.emit_parallel _
  | byId settings => exact hemit settings.emit_parallel _
  | look settings => exact hemit settings.emit_parallel _
  | best settings => exact hemit settings.emit_parallel _
  | move settings => exact hemit settings.emit_parallel _
  | harvest settings | build settings | repair settings => exact hemit (settings.emit_parallel _) _
  | transfer settings => exact hemit settings.emit_parallel _
  | withdraw settings => exact hemit settings.emit_parallel _
  | upgrade settings | attack settings | heal settings => exact hemit (settings.emit_parallel _) _
  | spawn settings => exact hemit settings.emit_parallel _
  | link settings => exact hemit settings.emit_parallel _
  | market settings => exact hemit settings.emit_parallel _
  | tower settings => exact hemit settings.emit_parallel _
  | memoryRead settings => exact hemit settings.emitRead_parallel _
  | memoryWrite settings => exact hemit settings.emitWrite_parallel _
  | memoryDelete settings => exact hemit settings.emitDelete_parallel _
  | taskCall settings => exact hemit settings.emit_parallel _
  | custom custom =>
      dsimp only
      rw [emitCustom_of_plain hplain hkind, emitCustom_of_plain hplain' (hkind'.trans hkind)]
      exact hemit (.warn _ (not_tellsOfMissingValue (by simp [toString]))) _

end Emission

end TickScript
