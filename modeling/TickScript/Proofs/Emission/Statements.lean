import TickScript.Proofs.Emission.Composition
import TickScript.Proofs.Walk.Course

/-!
# The statements of all kinds

Every built-in kind writes what statements are composed of, so a node obeys every law of walks that
its branches obey, and by `visit_obeys` so does a whole walk. The proofs go along the actions of each
emitter. Where a value is recorded some lines after its declaration, the name stays in scope over
these lines.
-/

namespace TickScript

open TickScript.Emission

namespace Kind

variable {table : NodeTable} {node : Node}

/-! ## Queries -/

theorem Search.call_writes (settings : Search) (room : String) :
    Emit.Writes table (settings.call room) := by
  unfold Search.call
  split
  · exact .skip _
  · exact (Emit.fresh_writes _ rfl).bind fun _ => .skip _

theorem Search.emit_writes (settings : Search) (hnode : node ∈ table.values) :
    Emit.Writes table (settings.emit node) :=
  (Emit.actorMember_writes _).bind fun _ => (Emit.input_defined _ _ _).bind fun _ =>
    (settings.call_writes _).bind fun _ => (Emit.define_writes hnode _ _ rfl).bind fun _ => .skip _

theorem ById.emit_writes (settings : ById) (hnode : node ∈ table.values)
    (hkind : node.kind = .byId settings) : Emit.Writes table (settings.emit node) := by
  refine (Emit.input_writes _ _ _ fun _ hundefined => ⟨hnode, ?_⟩).bind fun _ =>
    (Emit.define_writes hnode _ _ rfl).bind fun _ => .skip _
  rw [hkind]
  cases hid : settings.id with
  | none => simp [openInputs, requiredInputs, hid]
  | some id => simp [hid, Literal.isUndefined] at hundefined

theorem Look.emit_writes (settings : Look) (hnode : node ∈ table.values) :
    Emit.Writes table (settings.emit node) := by
  refine (Emit.actorMember_writes _).bind fun _ => (Emit.input_defined _ _ _).bind fun _ => ?_
  refine (Emit.fresh_writes _ rfl).bind fun name => ?_
  cases settings.mode with
  | point =>
      exact (Emit.say_const name (by simp [toString])).bind fun _ =>
        Emit.produce_writes hnode name
  | area =>
      exact (Emit.input_writes _ _ _ (by nofun)).bind fun _ => (Emit.bind_writes _ _ rfl).bind fun _ =>
        (Emit.say_const name (by simp [toString])).bind fun _ => Emit.produce_writes hnode name

theorem BestStrategy.finder_mem (strategy : BestStrategy) : strategy.finder ∈ helpers := by
  cases strategy <;> decide

/-- The closest item is held in a constant. -/
theorem Best.emitClosest_holds (settings : Best) (list : String) :
    Composed (Emit.law table) (fun _ => True) (settings.emitClosest node list)
      fun best context => context.Holds best :=
  (Emit.actorMember_writes _).bind fun _ => (Emit.input_defined _ _ _).bind fun _ =>
    (Emit.require_writes _ _ settings.strategy.finder_mem).bind fun _ =>
      (Emit.fresh_writes _ rfl).bind fun best => (Emit.say_const best (by simp [toString])).bind fun _ =>
        .pure fun _ hbest => hbest

/-- The best item so far is held in a variable that stands before the loop. -/
theorem Best.emitExtreme_holds (settings : Best) (list : String) :
    Composed (Emit.law table) (fun _ => True) (settings.emitExtreme list)
      fun best context => context.Holds best := by
  refine (Emit.fresh_writes _ rfl).bind fun best => (Emit.fresh_writes _ rfl).bind fun score => ?_
  refine (Emit.fresh_writes _ rfl).bind fun candidate => (Emit.fresh_writes _ rfl).bind fun value => ?_
  refine (Emit.say_let best (by simp [toString])).bind fun _ => ?_
  refine ((Emit.say_writes _).holding best).bind fun _ => ?_
  refine Composed.bind (Composed.holding (Emit.block_writes _ ?_) best) fun _ =>
    .pure fun _ hbest => hbest
  exact (Emit.say_writes _).bind fun _ => (Emit.say_writes _).bind fun _ =>
    Emit.block_writes _ ((Emit.say_writes _).bind fun _ => Emit.say_writes _)

theorem Best.emit_writes (settings : Best) (hnode : node ∈ table.values) :
    Emit.Writes table (settings.emit node) := by
  refine (Emit.input_writes _ _ _ (by nofun)).bind fun list => ?_
  have hproduce (best : String) := Emit.produce_writes hnode best
  cases settings.strategy with
  | range | path => exact (settings.emitClosest_holds list).bind hproduce
  | min | max => exact (settings.emitExtreme_holds list).bind hproduce

/-! ## Actions -/

/-- A target is undefined only if nothing is set and there is no default. -/
theorem targetInput_writes (configured : Literal) (defaultTarget : Option String) (actor : String)
    (hopen : configured.isUndefined = true → defaultTarget = none →
      node ∈ table.values ∧ "target" ∈ node.kind.openInputs) :
    Emit.Writes table (targetInput node configured defaultTarget actor) := by
  refine Emit.input_writes _ _ _ fun _ hundefined => ?_
  cases configured with
  | undefined =>
      cases defaultTarget with
      | none => exact hopen rfl rfl
      | some member => cases hundefined
  | _ => cases hundefined

theorem approach_writes (result actor target : String) :
    Emit.Writes table (approach result actor target) :=
  (Emit.require_writes _ _ (.head _)).bind fun _ => Emit.block_writes _ (Emit.say_writes _)

theorem Move.emit_writes (settings : Move) (hnode : node ∈ table.values)
    (hkind : node.kind = .move settings) : Emit.Writes table (settings.emit node) := by
  have hopen (h : settings.target.isUndefined = true) : "target" ∈ node.kind.openInputs := by
    rw [hkind]
    simp [openInputs, requiredInputs, h]
  exact (Emit.actorInput_writes _).bind fun _ =>
    (targetInput_writes _ _ _ fun h _ => ⟨hnode, hopen h⟩).bind fun _ =>
      (Emit.require_writes _ _ (.head _)).bind fun _ =>
        (Emit.define_writes hnode _ _ rfl).bind fun _ => .skip _

theorem Work.emit_writes (settings : Work) (form : ActionForm) (hnode : node ∈ table.values)
    (hstem : Text.isStem form.stem = true) (htarget : form.defaultTarget ≠ none) :
    Emit.Writes table (settings.emit form node) := by
  refine (Emit.actorInput_writes _).bind fun actor => ?_
  refine (targetInput_writes _ _ _ fun _ h => absurd h htarget).bind fun target => ?_
  cases settings.moveCloser with
  | true =>
      exact (Emit.bind_writes _ _ rfl).bind fun _ => (Emit.define_writes hnode _ _ hstem).bind fun _ =>
        approach_writes _ _ _
  | false =>
      exact .bind (.skip target) fun _ => (Emit.define_writes hnode _ _ hstem).bind fun _ => .skip _

theorem Target.emit_writes (settings : Target) (form : ActionForm) (hnode : node ∈ table.values)
    (hstem : Text.isStem form.stem = true)
    (htarget : settings.target.isUndefined = true → form.defaultTarget = none →
      "target" ∈ node.kind.openInputs) : Emit.Writes table (settings.emit form node) :=
  (Emit.actorInput_writes _).bind fun _ =>
    (targetInput_writes _ _ _ fun h hdefault => ⟨hnode, htarget h hdefault⟩).bind fun _ =>
      (Emit.define_writes hnode _ _ hstem).bind fun _ => .skip _

theorem Transfer.emit_writes (settings : Transfer) (hnode : node ∈ table.values) :
    Emit.Writes table (settings.emit node) := by
  refine (Emit.actorInput_writes _).bind fun actor => ?_
  refine (targetInput_writes _ _ _ (by nofun)).bind fun target => ?_
  cases settings.fallback with
  | move =>
      exact (Emit.bind_writes _ _ rfl).bind fun _ => (Emit.define_writes hnode _ _ rfl).bind fun _ =>
        approach_writes _ _ _
  | none =>
      exact .bind (.skip target) fun _ => (Emit.define_writes hnode _ _ rfl).bind fun _ => .skip _
  | drop =>
      exact .bind (.skip target) fun _ => (Emit.define_writes hnode _ _ rfl).bind fun _ =>
        Emit.block_writes _ (Emit.say_writes _)

theorem Withdraw.emit_writes (settings : Withdraw) (hnode : node ∈ table.values) :
    Emit.Writes table (settings.emit node) :=
  (Emit.actorInput_writes _).bind fun _ => (targetInput_writes _ _ _ (by nofun)).bind fun _ =>
    (Emit.bind_writes _ _ rfl).bind fun _ => (Emit.define_writes hnode _ _ rfl).bind fun _ =>
      approach_writes _ _ _

/-! ## Structures -/

/-- An object without an id is undefined. -/
theorem eq_none_of_objectById {id : Option String} (h : (objectById id).isUndefined = true) :
    id = none := by
  cases id with
  | none => rfl
  | some id => cases h

theorem Link.emit_writes (settings : Link) (hnode : node ∈ table.values)
    (hkind : node.kind = .link settings) : Emit.Writes table (settings.emit node) := by
  have hsource (h : settings.source = none) : "source" ∈ node.kind.openInputs := by
    rw [hkind]
    simp [openInputs, requiredInputs, h]
  have htarget (h : settings.target = none) : "target" ∈ node.kind.openInputs := by
    rw [hkind]
    simp [openInputs, requiredInputs, h]
  exact (Emit.input_writes _ _ _ fun _ h => ⟨hnode, hsource (eq_none_of_objectById h)⟩).bind fun _ =>
    (Emit.input_writes _ _ _ fun _ h => ⟨hnode, htarget (eq_none_of_objectById h)⟩).bind fun _ =>
      (Emit.bind_writes _ _ rfl).bind fun _ => (Emit.define_writes hnode _ _ rfl).bind fun _ => .skip _

theorem Market.orderCall_writes (settings : Market) (hnode : node ∈ table.values)
    (hkind : node.kind = .market settings) (hmode : settings.mode ≠ .deal) (terminal : String)
    (amount : Literal) : Emit.Writes table (settings.orderCall node terminal amount) := by
  refine (Emit.optionalInput_writes _ _ _ fun _ hundefined => ⟨hnode, ?_⟩).bind fun _ => .skip _
  rw [hkind]
  cases hprice : settings.price with
  | none => simp [openInputs, hmode, hprice]
  | some price => simp [hprice, Literal.isUndefined] at hundefined

/-- A deal without an order is warned of. -/
theorem Market.dealCall_writes (settings : Market) (hnode : node ∈ table.values) (terminal : String)
    (amount : Literal) : Emit.Writes table (settings.dealCall node terminal amount) := by
  by_cases hmissing : node.input? "orderId" = none ∧ settings.orderId = none
  · obtain ⟨hinput, horder⟩ := hmissing
    intro context _
    refine ⟨?_, trivial⟩
    have hrun : ((settings.dealCall node terminal amount).run context).2 =
        (context.standIn node.id "orderId" .undefined).warn node.id "market deal has no order id" := by
      simp only [dealCall, horder, Emit.optionalInput, Emit.input, hinput]
      rfl
    rw [hrun]
    exact .warned node _ _ _ hinput hnode (.done _)
  · refine (Emit.optionalInput_writes _ _ _ fun hinput hundefined => ?_).bind fun order => ?_
    · cases horder : settings.orderId with
      | none => exact absurd ⟨hinput, horder⟩ hmissing
      | some id => simp [horder, Literal.isUndefined] at hundefined
    · dsimp only
      split
      · exact (Emit.warn_writes _ _).bind fun _ => .skip _
      · exact .skip _

theorem Market.emit_writes (settings : Market) (hnode : node ∈ table.values)
    (hkind : node.kind = .market settings) : Emit.Writes table (settings.emit node) := by
  have hamount (h : settings.amount = none) : "amount" ∈ node.kind.openInputs := by
    rw [hkind]
    simp [openInputs, h]
  refine (Emit.actorMember_writes _).bind fun _ => (Emit.input_defined _ _ _).bind fun _ => ?_
  refine (Emit.bind_writes _ _ rfl).bind fun terminal => ?_
  refine (Emit.optionalInput_writes _ _ _ fun _ hundefined => ⟨hnode, hamount ?_⟩).bind
    fun amount => ?_
  · cases hset : settings.amount with
    | none => rfl
    | some amount => simp [hset, Literal.isUndefined] at hundefined
  have hresult (call : String) : Emit.Writes table (do
      let result ← Emit.fresh "market"
      Emit.say s!"let {result} = ERR_NOT_FOUND;"
      Emit.block s!"if ({terminal})" do
        Emit.say s!"{result} = {call};"
      Emit.produce node.id result) := by
    refine (Emit.fresh_writes _ rfl).bind fun result => ?_
    refine (Emit.say_let result (by simp [toString])).bind fun _ => ?_
    exact ((Emit.block_writes _ (Emit.say_writes _)).holding result).bind fun _ =>
      Emit.produce_writes hnode result
  cases hmode : settings.mode with
  | buy | sell =>
      have hother : settings.mode ≠ .deal := by simp [hmode]
      exact (settings.orderCall_writes hnode hkind hother _ _).bind hresult
  | deal => exact (settings.dealCall_writes hnode _ _).bind hresult

theorem Tower.emitAction_writes (settings : Tower) (tower chosen target : String)
    (action : TowerAction) : Emit.Writes table (settings.emitAction tower chosen target action) := by
  refine Emit.block_writes _ ?_
  have hact : Emit.Writes table (do
      Emit.say s!"const {target} = {settings.findTarget tower action};"
      Emit.say s!"if ({target} && {tower}.{action.name}({target}) === OK) break;") :=
    (Emit.say_writes _).bind fun _ => Emit.say_writes _
  split
  · exact (Emit.say_writes _).bind fun _ => hact
  · exact hact

theorem Tower.emit_writes (settings : Tower) (hnode : node ∈ table.values) :
    Emit.Writes table (settings.emit node) := by
  refine (Emit.actorMember_writes _).bind fun _ => (Emit.input_defined _ _ _).bind fun room => ?_
  have htowers : Emit.Writes table (do
      let towers ← Emit.fresh "towers"
      let tower ← Emit.fresh "tower"
      let chosen ← Emit.fresh "action"
      let target ← Emit.fresh "target"
      Emit.say (s!"const {towers} = {Text.atom room}.find(FIND_MY_STRUCTURES, " ++
        "\x7b filter: (s) => s.structureType === STRUCTURE_TOWER \x7d);")
      let order := Text.listing ((distinct settings.priorities).map fun action =>
        Text.quote action.name)
      Emit.block s!"for (const {tower} of {towers})" do
        Emit.block s!"for (const {chosen} of {order})" do
          (distinct settings.priorities).forM (settings.emitAction tower chosen target)
      Emit.produce node.id towers) := by
    refine (Emit.fresh_writes _ rfl).bind fun towers => (Emit.fresh_writes _ rfl).bind fun tower => ?_
    refine (Emit.fresh_writes _ rfl).bind fun chosen => (Emit.fresh_writes _ rfl).bind fun target => ?_
    refine (Emit.say_const towers (by simp [toString])).bind fun _ => ?_
    refine Composed.bind (Composed.holding (Emit.block_writes _ (Emit.block_writes _ ?_)) towers)
      fun _ => Emit.produce_writes hnode towers
    exact .forM (settings.emitAction_writes tower chosen target)
  dsimp only
  split
  · exact (Emit.warn_writes _ _).bind fun _ => htowers
  · exact htowers

namespace Spawn

/-! ## Spawns -/

theorem emitFixed_writes (settings : Spawn) : Emit.Writes table settings.emitFixed :=
  (Emit.fresh_writes _ rfl).bind fun _ => (Emit.say_writes _).bind fun _ => .skip _

theorem emitFilled_writes (settings : Spawn) (weights : List (BodyPart × Nat)) (spawn : String) :
    Emit.Writes table (settings.emitFilled weights spawn) := by
  refine (Emit.fresh_writes _ rfl).bind fun body => (Emit.fresh_writes _ rfl).bind fun budget => ?_
  refine (Emit.fresh_writes _ rfl).bind fun added => (Emit.say_writes _).bind fun _ => ?_
  refine (Emit.say_writes _).bind fun _ => (Emit.say_writes _).bind fun _ => ?_
  refine .bind (Emit.block_writes _ ?_) fun _ => (Emit.say_writes _).bind fun _ => .skip _
  refine (Emit.say_writes _).bind fun _ => Emit.block_writes _ (Emit.block_writes _ ?_)
  exact (Emit.say_writes _).bind fun _ => (Emit.say_writes _).bind fun _ =>
    (Emit.say_writes _).bind fun _ => Emit.say_writes _

theorem emitWeighted_writes (settings : Spawn) (spawn : String) :
    Emit.Writes table (settings.emitWeighted node spawn) := by
  unfold emitWeighted
  dsimp only
  split
  · exact (Emit.warn_writes _ _).bind fun _ => settings.emitFixed_writes
  · exact settings.emitFilled_writes _ spawn

theorem emitSelection_writes (settings : Spawn) (spawn : String) (lowest : Nat) :
    Emit.Writes table (settings.emitSelection node spawn lowest) := by
  refine (Emit.input_writes _ _ _ (by nofun)).bind fun level => ?_
  refine (Emit.fresh_writes _ rfl).bind fun presets => (Emit.fresh_writes _ rfl).bind fun tier => ?_
  refine (Emit.fresh_writes _ rfl).bind fun body => ?_
  refine (Emit.say_writes _).bind fun _ => (Emit.say_writes _).bind fun _ => ?_
  exact .bind (Emit.block_writes _ (Emit.say_writes _)) fun _ =>
    (Emit.say_writes _).bind fun _ => .skip _

theorem emitPreset_writes (settings : Spawn) (spawn : String) :
    Emit.Writes table (settings.emitPreset node spawn) := by
  unfold emitPreset
  split
  · exact (Emit.warn_writes _ _).bind fun _ => settings.emitFixed_writes
  · split
    · exact (Emit.fresh_writes _ rfl).bind fun _ => (Emit.say_writes _).bind fun _ => .skip _
    · exact settings.emitSelection_writes spawn _

/-- The memory of a new unit is always defined. -/
theorem isUndefined_memoryTemplate (template : Literal) :
    (memoryTemplate template).isUndefined = false := by
  cases template <;> rfl

theorem isUndefined_spawnFallback (settings : Spawn) : settings.spawnFallback.isUndefined = false := by
  unfold spawnFallback
  split <;> rfl

theorem emit_writes (settings : Spawn) (hnode : node ∈ table.values) :
    Emit.Writes table (settings.emit node) := by
  have hspawn := settings.isUndefined_spawnFallback
  have hmemory := isUndefined_memoryTemplate settings.memory
  refine (Emit.input_writes _ _ _ fun _ h => by simp [hspawn] at h).bind fun _ => ?_
  refine (Emit.bind_writes _ _ rfl).bind fun spawn => ?_
  have hspawned (body : String) : Emit.Writes table (do
      let name ← Emit.input node "name" (.text s!"{Text.quote settings.name} + Game.time")
      let memory ← Emit.input node "memory" (memoryTemplate settings.memory)
      let _ ← Emit.define node "spawned"
        s!"{Text.atom spawn}.spawnCreep({body}, {name}, \x7b memory: {memory} \x7d)") :=
    (Emit.input_writes _ _ _ (by nofun)).bind fun _ =>
      (Emit.input_writes _ _ _ fun _ h => by simp [hmemory] at h).bind fun _ =>
        (Emit.define_writes hnode _ _ rfl).bind fun _ => .skip _
  cases settings.body with
  | fixed => exact settings.emitFixed_writes.bind hspawned
  | weighted => exact (settings.emitWeighted_writes spawn).bind hspawned
  | preset => exact (settings.emitPreset_writes spawn).bind hspawned

end Spawn

/-! ## Memory and tasks -/

namespace Memory

theorem locate_writes (settings : Memory) : Emit.Writes table (settings.locate node) := by
  unfold locate
  dsimp only
  split
  · exact .skip _
  · exact (Emit.actorMember_writes _).bind fun _ => (Emit.input_defined _ _ _).bind fun _ =>
      (Emit.bind_writes _ _ rfl).bind fun _ => .skip _
  · exact (Emit.actorInput_writes _).bind fun _ => .skip _

theorem emitRead_writes (settings : Memory) (hnode : node ∈ table.values)
    (hkind : node.kind = .memoryRead settings) : Emit.Writes table (settings.emitRead node) := by
  refine settings.locate_writes.bind fun _ => ?_
  refine (Emit.input_writes _ _ _ fun _ hundefined => ⟨hnode, ?_⟩).bind fun _ =>
    (Emit.define_writes hnode _ _ rfl).bind fun _ => .skip _
  rw [hkind]
  simp [openInputs, hundefined]

theorem emitParents_writes (location : Location) : Emit.Writes table (emitParents location) :=
  .forM fun _ => Emit.say_writes _

theorem emitStore_writes (settings : Memory) (location : Location) (value : String) :
    Emit.Writes table (settings.emitStore location value) := by
  unfold emitStore
  dsimp only
  split
  · exact (Emit.fresh_writes _ rfl).bind fun _ => (Emit.say_writes _).bind fun _ => Emit.say_writes _
  · exact Emit.say_writes _

/-- The value that is written is simple or stays in scope until it is recorded. -/
theorem emitWrite_writes (settings : Memory) (hnode : node ∈ table.values)
    (hkind : node.kind = .memoryWrite settings) : Emit.Writes table (settings.emitWrite node) := by
  have hstore : node.kind.isStore = true := by
    rw [hkind]
    rfl
  have hopen (h : settings.value.isUndefined = true) : "value" ∈ node.kind.openInputs := by
    rw [hkind]
    simp [openInputs, requiredInputs, h]
  refine settings.locate_writes.bind fun location => ?_
  split
  · exact Emit.warn_writes _ _
  · refine (Emit.input_writes _ _ _ fun _ h => ⟨hnode, hopen h⟩).bind fun _ => ?_
    refine (Emit.bind_holds _ _ rfl).bind fun value => ?_
    -- A simple value is passed on as it is; any other is a constant, which has to stay in scope.
    cases hsimple : Text.isSimple value with
    | true =>
        exact .forget <| (emitParents_writes _).bind fun _ =>
          (settings.emitStore_writes _ _).bind fun _ => Emit.store_writes hnode hstore hsimple
    | false =>
        have hheld : Composed (Emit.law table) (·.Holds value)
            (do
              emitParents location
              settings.emitStore location value
              Emit.produce node.id value) fun _ _ => True :=
          ((emitParents_writes location).holding value).bind fun _ =>
            ((settings.emitStore_writes location value).holding value).bind fun _ =>
              Emit.produce_writes hnode value
        exact fun state hvalue => hheld state (hvalue.resolve_right (by simp))

theorem emitDelete_writes (settings : Memory) (hnode : node ∈ table.values)
    (hkind : node.kind.isStore = true) : Emit.Writes table (settings.emitDelete node) := by
  refine settings.locate_writes.bind fun location => ?_
  split
  · exact Emit.warn_writes _ _
  · exact (Emit.say_writes _).bind fun _ => Emit.store_writes hnode hkind (by decide)

end Memory

/-- The arguments of a call are always defined. -/
theorem TaskCall.isUndefined_arguments (configured : Literal) (actor : String) :
    (arguments configured actor).isUndefined = false := by
  unfold arguments
  split
  · rfl
  · rfl
  · split <;> rfl
  · next hundefined _ _ =>
    cases configured with
    | undefined => exact absurd rfl hundefined
    | _ => rfl

theorem TaskCall.emit_writes (settings : TaskCall) (hnode : node ∈ table.values) :
    Emit.Writes table (settings.emit node) := by
  refine (Emit.actorInput_writes _).bind fun actor => ?_
  have hargs := isUndefined_arguments settings.args actor
  exact (Emit.input_writes _ _ _ fun _ h => by simp [hargs] at h).bind fun _ =>
    (Emit.define_writes hnode _ _ rfl).bind fun _ => .skip _

theorem Return.emit_writes (settings : Return) : Emit.Writes table (settings.emit node) := by
  unfold Return.emit
  split
  · exact Emit.say_writes _
  · next hgiven =>
    refine (Emit.input_writes _ _ _ fun hinput hundefined => ?_).bind fun _ => Emit.say_writes _
    simp [hinput, hundefined] at hgiven

/-! ## Control structures -/

section Constructs

variable {law : Walk.Law table} {branch : List String → Walk Unit}
  (hbranch : ∀ ids, Walk.Obeys law (branch ids))

include hbranch

theorem emitBranch_obeys : Walk.Obeys law (emitBranch branch node) := by
  refine .bind (Walk.lift_composed (Emit.input_writes _ _ _ (by nofun))) fun condition => ?_
  refine (Walk.say_obeys _).bind fun _ => (Walk.indented_obeys (hbranch _)).bind fun _ => ?_
  dsimp only
  split
  · exact (Walk.say_obeys _).bind fun _ => (Walk.indented_obeys (hbranch _)).bind fun _ =>
      Walk.say_obeys _
  · exact Walk.say_obeys _

theorem Switch.emitCases_obeys (index : Nat) (earlier : List Literal) (cases : List SwitchCase) :
    Walk.Obeys law (emitCases branch node index earlier cases) := by
  induction cases generalizing index earlier with
  | nil => exact .skip ()
  | cons case cases ih =>
      unfold emitCases
      dsimp only
      split
      · exact .bind (Walk.lift_composed (Emit.warn_writes _ _)) fun _ => ih _ _
      · exact .bind (Walk.block_obeys _ ((hbranch _).bind fun _ => Walk.say_obeys _)) fun _ => ih _ _

theorem Switch.emit_obeys (settings : Switch) (hnode : node ∈ table.values)
    (hkind : node.kind = .switch settings) : Walk.Obeys law (settings.emit branch node) := by
  have hopen : "value" ∈ node.kind.openInputs := by
    rw [hkind]
    exact .head _
  exact .bind (Walk.lift_composed (Emit.input_writes _ _ _ fun _ _ => ⟨hnode, hopen⟩)) fun _ =>
    Walk.block_obeys _ <| (emitCases_obeys hbranch _ _ _).bind fun _ =>
      Walk.block_obeys _ <| (hbranch _).bind fun _ => Walk.say_obeys _

/-- The counter is in scope in the body of its loop. -/
theorem Loop.emitCounted_obeys (settings : Loop) (hnode : node ∈ table.values) (ran : String) :
    Walk.Obeys law (settings.emitCounted branch node ran) := by
  have hloop (counter : String) : Walk.Obeys law
      (Walk.block s!"for (let {counter} = 0; {counter} < {settings.maxIterations}; {counter}++)" do
        Walk.say s!"{ran} = true;"
        Walk.lift (Emit.produce node.id counter)
        branch (node.slot "body")) := by
    refine .bind (Walk.say_for counter (by simp [toString])) fun _ => ?_
    refine .bind (Walk.indented_holding ?_) fun _ => (Walk.say_obeys _).bind fun _ => .skip _
    exact ((Walk.say_obeys _).holding counter).bind fun _ =>
      .bind (Walk.lift_composed (Emit.produce_writes hnode counter)) fun _ => hbranch _
  unfold emitCounted
  dsimp only
  split
  · split
    · exact .bind (.skip _) hloop
    · exact .bind (Walk.lift_composed (Emit.fresh_writes _ rfl)) hloop
  · exact .bind (Walk.lift_composed (Emit.fresh_writes _ rfl)) hloop

/-- The guard is declared before its loop and in scope in the body. -/
theorem Loop.emitConditional_obeys (settings : Loop) (hnode : node ∈ table.values) (ran : String) :
    Walk.Obeys law (settings.emitConditional branch node ran) := by
  refine .bind (Walk.lift_composed (Emit.input_writes _ _ _ (by nofun))) fun condition => ?_
  refine .bind (Walk.lift_composed (Emit.fresh_writes _ rfl)) fun guard => ?_
  refine .bind (Walk.lift_composed (Emit.say_let guard (by simp [toString]))) fun _ => ?_
  refine .bind ((Walk.say_obeys _).holding guard) fun _ => ?_
  -- The guard belongs to the block outside of the loop, which stays open inside of it.
  refine .bind (fun state hguard => Walk.indented_holding ?_ state hguard.enter) fun _ =>
    (Walk.say_obeys _).bind fun _ => .skip _
  refine ((Walk.say_obeys _).holding guard).bind fun _ => ?_
  refine ((Walk.say_obeys _).holding guard).bind fun _ => ?_
  refine ((Walk.say_obeys _).holding guard).bind fun _ => ?_
  exact .bind (Walk.lift_composed (Emit.produce_writes hnode guard)) fun _ => hbranch _

theorem Loop.emit_obeys (settings : Loop) (hnode : node ∈ table.values) :
    Walk.Obeys law (settings.emit branch node) := by
  refine .bind (Walk.lift_composed (Emit.fresh_writes _ rfl)) fun ran => ?_
  have helse : Walk.Obeys law
      (if !(node.slot "else").isEmpty then Walk.block s!"if (!{ran})" (branch (node.slot "else"))
      else pure ()) := by
    split
    · exact Walk.block_obeys _ (hbranch _)
    · exact .skip _
  refine (Walk.say_obeys _).bind fun _ => ?_
  cases settings.mode with
  | counted => exact (settings.emitCounted_obeys hbranch hnode ran).bind fun _ => helse
  | conditional => exact (settings.emitConditional_obeys hbranch hnode ran).bind fun _ => helse

/-- The error is in scope where it is caught. -/
theorem emitAttempt_obeys (hnode : node ∈ table.values) :
    Walk.Obeys law (emitAttempt branch node) := by
  refine (Walk.say_obeys _).bind fun _ => (Walk.indented_obeys (hbranch _)).bind fun _ => ?_
  refine .bind (Walk.lift_composed (Emit.fresh_writes _ rfl)) fun error => ?_
  refine .bind (Walk.say_catch error (by simp [toString])) fun _ => ?_
  refine .bind (Walk.indented_holding ?_) fun _ => ?_
  · refine .bind (Walk.lift_composed (Emit.produce_writes hnode error)) fun _ => ?_
    split
    · exact Walk.say_obeys _
    · exact hbranch _
  · dsimp only
    split
    · exact (Walk.say_obeys _).bind fun _ => (Walk.indented_obeys (hbranch _)).bind fun _ =>
        Walk.say_obeys _
    · exact Walk.say_obeys _

theorem Tick.emit_obeys (settings : Tick) (hnode : node ∈ table.values) :
    Walk.Obeys law (settings.emit branch node) :=
  .bind (Walk.lift_composed (Emit.define_writes hnode _ _ rfl)) fun _ => Walk.block_obeys _ (hbranch _)

theorem emitFanOut_obeys : Walk.Obeys law (emitFanOut branch node) :=
  .forM fun _ => (Walk.say_obeys _).bind fun _ => hbranch _

end Constructs

end Kind

namespace Emission

variable {setting : Setting} {law : Walk.Law setting.table}

/-- The statements of a node obey a law of walks if branches do, unless an emitter of the registry
writes them. -/
theorem dispatch_obeys {table : NodeTable} {law : Walk.Law table} {node : Node}
    {branch : List String → Walk Unit} (hplain : setting.isPlain node = true)
    (hnode : node ∈ table.values) (hbranch : ∀ ids, Walk.Obeys law (branch ids)) :
    Walk.Obeys law (dispatch setting branch node) := by
  have hemit {action : Emit Unit} (h : Emit.Writes table action)
      (continuation : Continuation) :
      Walk.Obeys law (do
        Walk.lift action
        return continuation) :=
    .bind (Walk.lift_composed h) fun _ => .skip _
  have hconstruct {action : Walk Unit} (h : Walk.Obeys law action) :
      Walk.Obeys law (do
        action
        return Continuation.outputs) :=
    h.bind fun _ => .skip _
  unfold dispatch
  cases hkind : node.kind with
  | start | merge | taskDefine => exact .skip _
  | branch => exact hconstruct (Kind.emitBranch_obeys hbranch)
  | switch settings => exact hconstruct (settings.emit_obeys hbranch hnode hkind)
  | loop settings => exact hconstruct (settings.emit_obeys hbranch hnode)
  | attempt => exact hconstruct (Kind.emitAttempt_obeys hbranch hnode)
  | tick settings => exact hconstruct (settings.emit_obeys hbranch hnode)
  | fanOut => exact hconstruct (Kind.emitFanOut_obeys hbranch)
  | «return» settings => exact hemit settings.emit_writes _
  | «break» | «continue» => exact hemit (Emit.say_writes _) _
  | search settings => exact hemit (settings.emit_writes hnode) _
  | byId settings => exact hemit (settings.emit_writes hnode hkind) _
  | look settings => exact hemit (settings.emit_writes hnode) _
  | best settings => exact hemit (settings.emit_writes hnode) _
  | move settings => exact hemit (settings.emit_writes hnode hkind) _
  | harvest settings | build settings | repair settings =>
      exact hemit (settings.emit_writes _ hnode rfl (by nofun)) _
  | transfer settings => exact hemit (settings.emit_writes hnode) _
  | withdraw settings => exact hemit (settings.emit_writes hnode) _
  | upgrade settings => exact hemit (settings.emit_writes _ hnode rfl (by nofun)) _
  | attack settings | heal settings =>
      refine hemit (settings.emit_writes _ hnode rfl fun hundefined _ => ?_) _
      rw [hkind]
      simp [Kind.openInputs, Kind.requiredInputs, hundefined]
  | spawn settings => exact hemit (settings.emit_writes hnode) _
  | link settings => exact hemit (settings.emit_writes hnode hkind) _
  | market settings => exact hemit (settings.emit_writes hnode hkind) _
  | tower settings => exact hemit (settings.emit_writes hnode) _
  | memoryRead settings => exact hemit (settings.emitRead_writes hnode hkind) _
  | memoryWrite settings => exact hemit (settings.emitWrite_writes hnode hkind) _
  | memoryDelete settings => exact hemit (settings.emitDelete_writes hnode (by rw [hkind]; rfl)) _
  | taskCall settings => exact hemit (settings.emit_writes hnode) _
  | custom custom =>
      change Walk.Obeys law (emitCustom setting branch node custom)
      rw [emitCustom_of_plain hplain hkind]
      exact hemit (Emit.warn_writes _ _) _

/-- To write a node obeys a law if its statements and the chains that it follows do. -/
theorem Walk.write_obeys {follow : String → Walk Unit} {node : Node} (id : String) (state : State)
    (hplain : setting.isPlain node = true) (hfollow : ∀ id, Obeys law (follow id))
    (hdispatch : law.Related state ((after (dispatch setting (·.forM follow) node)
      (state.opened setting id node)).resume id (continuationOf node.kind) state.joins)) :
    law.Related state (after (write setting follow id node) state) := by
  rw [after_write follow id state hplain]
  dsimp only
  split
  · exact hdispatch
  · exact law.trans hdispatch (Composed.forM hfollow _ trivial).1

/-- A visit obeys a law if to postpone an id, to come to one without a node and to write a node do,
the last as long as the chains that it follows do. -/
theorem Walk.visit_obeys
    (hpostponed : ∀ id state, law.Related state (state.note (.postponed id)))
    (hmissing : ∀ id state, law.Related state ((state.enter id).note (.left id)))
    (hwritten : ∀ follow, (∀ id, Obeys law (follow id)) → ∀ id node state,
      setting.table.get? id = some node →
        law.Related state ((after (write setting follow id node) (state.enter id)).note (.left id)))
    (budget : Nat) (id : String) : Obeys law (visit setting budget id) := by
  induction budget generalizing id with
  | zero => exact .skip ()
  | succ budget ih =>
      intro state _
      refine ⟨?_, trivial⟩
      change law.Related state (after (visit setting (budget + 1) id) state)
      rw [after_visit]
      split
      · exact law.refl state
      · split
        · exact hpostponed id state
        · cases hnode : setting.table.get? id with
          | none => exact hmissing id state
          | some node => exact hwritten _ ih id node state hnode

end Emission

end TickScript
