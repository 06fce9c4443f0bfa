import TickScript.Proofs.Emission.Recorded
import TickScript.Proofs.Emission.Statements
import TickScript.Proofs.Keyed

/-!
# Phases of statements

The statements of a node record a value at one point or never, and write slots in between. The phases
of a node list these points for every kind, in their order. `Runs` says of a course of events that it
goes through some phases: changes of the context that record nothing come before, between and after
them. `dispatch_runs` proves that the statements of a node go through its phases, one after the
other, whatever becomes of the chains in its slots.
-/

namespace TickScript

/-- A point that the statements of a node come to. -/
inductive Phase where
  /-- The value of the node is recorded. -/
  | record
  /-- The chains of a slot are written. -/
  | slot (name : String)
  deriving DecidableEq

/-- The slot that a phase writes. -/
def Phase.slot? : Phase → Option String
  | .record => none
  | .slot name => some name

/-- The phases of the statements of a node, in their order. A switch writes the first of several cases
with one value and its default, and a memory node whose path has no segments records nothing. -/
def Node.phases (node : Node) : List Phase :=
  match node.kind with
  | .start | .merge | .return _ | .break | .continue | .taskDefine _ | .custom _ => []
  | .branch => [.slot "true", .slot "false"]
  | .switch settings =>
    ((List.range settings.cases.length).filter settings.isFirst).map
      (fun index => .slot s!"case-{index}") ++ [.slot "default"]
  | .loop _ => [.record, .slot "body", .slot "else"]
  | .attempt => [.slot "try", .record, .slot "catch", .slot "finally"]
  | .tick _ => [.record, .slot "body"]
  | .fanOut => node.slots.keys.map .slot
  | .search _ | .byId _ | .look _ | .best _ => [.record]
  | .move _ | .harvest _ | .build _ | .repair _ | .transfer _ | .withdraw _ | .upgrade _
  | .attack _ | .heal _ => [.record]
  | .spawn _ | .link _ | .market _ | .tower _ => [.record]
  | .memoryWrite settings | .memoryDelete settings =>
    if (Text.splitPath settings.path).isEmpty then [] else [.record]
  | .memoryRead _ | .taskCall _ => [.record]

namespace Node

/-- The slots that the statements of a node write. -/
def writtenSlots (node : Node) : List String := node.phases.filterMap Phase.slot?

/-- The statements of a node record its value once at most. -/
theorem count_record_phases (node : Node) : node.phases.count .record ≤ 1 := by
  have hslots {α : Type} (name : α → String) (items : List α) :
      (items.map fun item => Phase.slot (name item)).count .record = 0 :=
    List.count_eq_zero.2 (by simp)
  unfold phases
  cases node.kind with
  | switch settings =>
      dsimp only
      rw [List.count_append, hslots]
      decide
  | fanOut =>
      dsimp only
      rw [hslots fun name => name]
      decide
  | memoryWrite settings | memoryDelete settings =>
      dsimp only
      split <;> decide
  | _ =>
      dsimp only
      decide

/-- The heads that are listed with a name are those of the slot. -/
theorem slot_of_mem {node : Node} {name : String} {heads : List String}
    (h : (name, heads) ∈ node.slots.entries) : node.slot name = heads := by
  rw [slot, Keyed.get?_of_mem h, Option.getD_some]

/-- The heads of a node are those of the slots that its statements write. -/
theorem heads_eq_writtenSlots (node : Node) :
    node.heads = node.writtenSlots.flatMap node.slot := by
  unfold heads writtenSlots phases
  cases node.kind with
  | switch settings =>
      simp [Kind.Switch.heads, List.filterMap_map, Function.comp_def, Phase.slot?, List.flatMap_map]
  | fanOut =>
      have hnames : (node.slots.keys.map Phase.slot).filterMap Phase.slot? = node.slots.keys := by
        simp [List.filterMap_map, Function.comp_def, Phase.slot?]
      dsimp only
      rw [hnames, Keyed.keys, Keyed.values, List.flatMap_map, List.flatMap_def]
      exact congrArg _ (List.map_congr_left fun entry hentry => (slot_of_mem hentry).symm)
  | memoryWrite settings | memoryDelete settings =>
      dsimp only
      split <;> rfl
  | _ => simp [Phase.slot?, List.filterMap_cons]

end Node

namespace Emission

/-! ## Changes that record nothing -/

/-- One change of a context by which no value is recorded. A value that is asked for is found, or else
there is a warning. -/
inductive Edit : Context → Context → Prop where
  | say (context : Context) (text : String) : Edit context (context.push text)
  | enter (context : Context) : Edit context context.enter
  | exit (context : Context) : Edit context context.exit
  | fresh (context : Context) (stem : String) : Edit context (context.issue stem)
  | require (context : Context) (symbol module : String) :
      Edit context (context.withImport symbol module)
  | warn (context : Context) (nodeId message : String) : Edit context (context.warn nodeId message)
  | found {context : Context} (consumer port : String) {source expr : String} :
      context.valueOf? source = some expr → Edit context (context.ask consumer source port)
  | missed {context : Context} (consumer port : String) {source : String} :
      context.valueOf? source = none →
        Edit context ((context.ask consumer source port).warn consumer (missingValue source port))
  | standIn (context : Context) (nodeId input : String) (literal : Literal) :
      Edit context (context.standIn nodeId input literal)

theorem Edit.values_eq {context final : Context} (h : Edit context final) :
    final.values = context.values := by
  cases h <;> rfl

/-- A node may record an expression: it is a name that was declared and is in scope, or a simple
expression that a memory node passes on. -/
def MayRecord (node : Node) (context : Context) (expr : String) : Prop :=
  context.Holds expr ∨ node.kind.isStore = true ∧ Text.isSimple expr = true

namespace Walk

/-! ## Courses of events -/

/-- `Runs follow node phases state final` says that changes which record nothing, and the phases one
after the other, lead from one state to another. -/
inductive Runs (follow : String → Walk Unit) (node : Node) :
    List Phase → State → State → Prop where
  | done (state : State) : Runs follow node [] state state
  | edit {phases : List Phase} {state final : State} {context : Context} :
      Edit state.context context → Runs follow node phases { state with context } final →
        Runs follow node phases state final
  | record {phases : List Phase} {state final : State} {expr : String} :
      MayRecord node state.context expr →
        Runs follow node phases { state with context := state.context.record node.id expr } final →
          Runs follow node (.record :: phases) state final
  | slot {phases : List Phase} {state final : State} (name : String) :
      Runs follow node phases (after ((node.slot name).forM follow) state) final →
        Runs follow node (.slot name :: phases) state final

variable {follow : String → Walk Unit} {node : Node} {phases later : List Phase}

/-- Courses can be joined. -/
theorem Runs.append {state middle final : State} (hfirst : Runs follow node phases state middle)
    (hlater : Runs follow node later middle final) :
    Runs follow node (phases ++ later) state final := by
  induction hfirst with
  | done => exact hlater
  | edit hedit _ ih => exact .edit hedit (ih hlater)
  | record hexpr _ ih => exact .record hexpr (ih hlater)
  | slot name _ ih => exact .slot name (ih hlater)

/-- A table with nothing but a node. -/
def alone (node : Node) : NodeTable := .ofList [(node.id, node)]

theorem mem_alone (node : Node) : node ∈ (alone node).values := List.mem_cons_self

/-- What leads from one context to another is a course of events that records as many values as the
latter has more. -/
def Traced (follow : String → Walk Unit) (node : Node) (context final : Context) : Prop :=
  ∃ count, final.values.length = context.values.length + count ∧
    ∀ state : State, Runs follow node (List.replicate count .record) { state with context }
      { state with context := final }

namespace Traced

variable {context middle final : Context}

theorem edit (hedit : Edit context middle) (h : Traced follow node middle final) :
    Traced follow node context final := by
  obtain ⟨count, hcount, hruns⟩ := h
  exact ⟨count, hedit.values_eq ▸ hcount, fun state => .edit hedit (hruns state)⟩

theorem trans (h : Traced follow node context middle) (hlater : Traced follow node middle final) :
    Traced follow node context final := by
  obtain ⟨count, hcount, hruns⟩ := h
  obtain ⟨more, hmore, hlater⟩ := hlater
  refine ⟨count + more, by rw [hmore, hcount, Nat.add_assoc], fun state => ?_⟩
  rw [← List.replicate_append_replicate]
  exact (hruns state).append (hlater state)

theorem record {expr : String} (hexpr : MayRecord node context expr)
    (h : Traced follow node (context.record node.id expr) final) :
    Traced follow node context final := by
  obtain ⟨count, hcount, hruns⟩ := h
  exact ⟨count + 1, hcount.trans (Nat.add_right_comm _ 1 count),
    fun state => .record hexpr (hruns state)⟩

end Traced

/-- What the statements of a single node do to a context can be traced. -/
theorem traced_of_composes {context final : Context} (h : Composes (alone node) context final) :
    Traced follow node context final := by
  induction h with
  | done context => exact ⟨0, rfl, fun state => .done _⟩
  | say text _ ih => exact .edit (.say _ text) ih
  | deeper _ _ ihbody ih => exact .edit (.enter _) (ihbody.trans (.edit (.exit _) ih))
  | fresh stem _ _ ih => exact .edit (.fresh _ stem) ih
  | require symbol module _ _ ih => exact .edit (.require _ symbol module) ih
  | warn nodeId message _ ih => exact .edit (.warn _ nodeId message) ih
  | found consumer _ port _ hfound _ ih => exact .edit (.found consumer port hfound) ih
  | missed consumer _ port hmissed _ ih => exact .edit (.missed consumer port hmissed) ih
  | standIn asking input literal _ _ _ ih => exact .edit (.standIn _ asking.id input literal) ih
  | warned asking input literal message _ _ _ ih =>
      exact .edit (.standIn _ asking.id input literal) (.edit (.warn _ asking.id message) ih)
  | record recording expr hnode hexpr _ ih =>
      obtain rfl : recording = node := List.mem_singleton.1 hnode
      exact .record hexpr ih

/-! ## Actions that go through phases -/

/-- `Enacts follow node phases before action result` says that an action, from states whose context
meets a condition, goes through some phases, and what holds of its result and the context
afterwards. -/
def Enacts {α : Type} (follow : String → Walk Unit) (node : Node) (phases : List Phase)
    (before : Context → Prop) (action : Walk α) (result : α → Context → Prop) : Prop :=
  ∀ state : State, before state.context → Runs follow node phases state (after action state) ∧
    result (action.run state).1 (after action state).context

/-- An action goes through some phases. -/
abbrev Plays {α : Type} (follow : String → Walk Unit) (node : Node) (phases : List Phase)
    (action : Walk α) : Prop :=
  Enacts follow node phases (fun _ => True) action fun _ _ => True

namespace Enacts

variable {α β : Type} {before : Context → Prop} {result : α → Context → Prop}

theorem skip (value : α) : Enacts follow node [] before (pure value : Walk α) fun _ _ => True :=
  fun state _ => ⟨.done state, trivial⟩

/-- An action on the context goes through as many phases as it records values. -/
theorem lift {count : Nat} {action : Emit α}
    (h : Composed (Emit.law (alone node)) before action result)
    (hrecords : Emit.Records count action) :
    Enacts follow node (List.replicate count .record) before (Walk.lift action) result := by
  intro state hbefore
  obtain ⟨hcomposes, hresult⟩ := h state.context hbefore
  obtain ⟨recorded, hcount, hruns⟩ := traced_of_composes hcomposes
  obtain rfl : recorded = count := Nat.add_left_cancel (hcount.symm.trans (hrecords state.context))
  exact ⟨hruns state, hresult⟩

/-- An action on the context that records nothing. -/
theorem quiet {action : Emit α} (h : Composed (Emit.law (alone node)) before action result)
    (hrecords : Emit.Records 0 action) : Enacts follow node [] before (Walk.lift action) result :=
  lift h hrecords

/-- Two actions in a row go through the phases of the one and then those of the other. -/
theorem bind {action : Walk α} {next : α → Walk β} {final : β → Context → Prop}
    (haction : Enacts follow node phases before action result)
    (hnext : ∀ value, Enacts follow node later (result value) (next value) final) :
    Enacts follow node (phases ++ later) before (action >>= next) final := by
  intro state hbefore
  obtain ⟨hfirst, hresult⟩ := haction state hbefore
  obtain ⟨hlater, hfinal⟩ := hnext _ _ hresult
  exact ⟨hfirst.append hlater, hfinal⟩

/-- An action before which there is no phase. -/
theorem afterQuiet {action : Walk α} {next : α → Walk β} {final : β → Context → Prop}
    (haction : Enacts follow node [] before action result)
    (hnext : ∀ value, Enacts follow node phases (result value) (next value) final) :
    Enacts follow node phases before (action >>= next) final :=
  haction.bind hnext

/-- An action after which there is no phase. -/
theorem beforeQuiet {action : Walk α} {next : α → Walk β} {final : β → Context → Prop}
    (haction : Enacts follow node phases before action result)
    (hnext : ∀ value, Enacts follow node [] (result value) (next value) final) :
    Enacts follow node phases before (action >>= next) final := by
  have h := haction.bind hnext
  rwa [List.append_nil] at h

theorem say (text : String) : Plays follow node [] (Walk.say text) :=
  quiet (Emit.say_writes text) (.say text)

/-- More is known of an action. -/
theorem telling {action : Walk α} (h : Plays follow node phases action)
    (hresult : Composed (contextLaw (alone node)).toLaw (fun _ => True) action result) :
    Enacts follow node phases (fun _ => True) action result := fun state _ =>
  ⟨(h state trivial).1, (hresult state trivial).2⟩

/-- A line is written while a name stays in scope. -/
theorem sayHolding (text name : String) :
    Enacts follow node [] (·.Holds name) (Walk.say text) fun _ context => context.Holds name :=
  quiet ((Emit.say_writes text).holding name) (.say text)

/-- A name that is in scope is recorded. -/
theorem record (name : String) :
    Enacts follow node [.record] (·.Holds name) (Walk.lift (Emit.produce node.id name))
      fun _ _ => True :=
  lift (Emit.produce_writes (mem_alone node) name) (.produce _ _)

/-- The chains of a slot, whose heads are known. -/
theorem chains {name : String} {heads : List String} (hslot : node.slot name = heads) :
    Plays follow node [.slot name] (heads.forM follow) := by
  subst hslot
  exact fun _ _ => ⟨.slot name (.done _), trivial⟩

theorem slot (name : String) : Plays follow node [.slot name] ((node.slot name).forM follow) :=
  chains rfl

/-- A slot without chains can be passed over. -/
theorem passSlot {name : String} {action : Walk α} (hslot : node.slot name = [])
    (h : Enacts follow node phases before action result) :
    Enacts follow node (.slot name :: phases) before action result := by
  intro state hbefore
  obtain ⟨hruns, hresult⟩ := h state hbefore
  refine ⟨.slot name ?_, hresult⟩
  rw [hslot]
  exact hruns

/-- Something is done one level deeper, where more may be in scope. -/
theorem indentedIn (before : Context → Prop) {body : Walk α}
    (h : Enacts follow node phases before body fun _ _ => True) :
    Enacts follow node phases (fun context => before context.enter) (Walk.indented body)
      fun _ _ => True := by
  intro state hbefore
  obtain ⟨hruns, -⟩ := h { state with context := state.context.enter } hbefore
  have hexit := hruns.append (.edit (.exit _) (.done _))
  rw [List.append_nil] at hexit
  exact ⟨.edit (.enter _) hexit, trivial⟩

theorem indented {body : Walk α} (h : Plays follow node phases body) :
    Plays follow node phases (Walk.indented body) :=
  indentedIn _ h

theorem block (header : String) {body : Walk α} (h : Plays follow node phases body) :
    Plays follow node phases (Walk.block header body) :=
  (say _).afterQuiet fun _ => h.indented.beforeQuiet fun _ => (say _).afterQuiet fun _ => .skip _

end Enacts

end Walk

end Emission

/-! ## Control structures -/

namespace Kind

open Emission
open Walk (Enacts Plays)

variable {follow : String → Walk Unit} {node : Node}

theorem emitBranch_plays : Plays follow node [.slot "true", .slot "false"]
    (emitBranch (·.forM follow) node) := by
  refine .afterQuiet (.quiet (Emit.input_writes _ _ _ nofun) (.input _ _ _)) fun condition => ?_
  refine (Enacts.say _).afterQuiet fun _ => .bind (.indented (.slot _)) fun _ => ?_
  cases hslot : node.slot "false" with
  | nil => exact .passSlot hslot (.say _)
  | cons head rest =>
      exact (Enacts.say _).afterQuiet fun _ =>
        (Enacts.chains hslot).indented.beforeQuiet fun _ => .say _

theorem Switch.emit_plays (settings : Switch) (hkind : node.kind = .switch settings) :
    Plays follow node
      (((List.range settings.cases.length).filter settings.isFirst).map
        (fun index => .slot s!"case-{index}") ++ [.slot "default"])
      (settings.emit (·.forM follow) node) := by
  have hcases : Plays follow node
      (((List.range settings.cases.length).filter settings.isFirst).map
        fun index => .slot s!"case-{index}")
      (emitCases (·.forM follow) node 0 [] settings.cases) := by
    refine emitCases_all (motive := fun indices action => Plays follow node
      (indices.map fun index => .slot s!"case-{index}") action) (.skip ()) ?_ ?_ settings
    · exact fun message indices rest hrest =>
        .afterQuiet (.quiet (Emit.warn_writes _ _) (.warn _ _)) fun _ => hrest
    · exact fun header index indices rest hrest =>
        .bind (.block _ ((Enacts.slot _).beforeQuiet fun _ => .say _)) fun _ => hrest
  have hvalue : "value" ∈ node.kind.openInputs := hkind ▸ List.mem_cons_self
  refine .afterQuiet (.quiet (Emit.input_writes _ _ _ fun _ _ => ⟨Walk.mem_alone node, hvalue⟩)
    (.input _ _ _)) fun value => .block _ <| hcases.bind fun _ => ?_
  exact .block _ ((Enacts.slot _).beforeQuiet fun _ => .say _)

namespace Loop

variable (settings : Loop) (ran : String)

/-- The counter is recorded at the start of the body, where it is in scope. -/
theorem emitCounted_plays : Plays follow node [.record, .slot "body"]
    (settings.emitCounted (·.forM follow) node ran) := by
  have hloop (counter : String) : Plays follow node [.record, .slot "body"]
      (Walk.block s!"for (let {counter} = 0; {counter} < {settings.maxIterations}; {counter}++)" do
        Walk.say s!"{ran} = true;"
        Walk.lift (Emit.produce node.id counter)
        (node.slot "body").forM follow) := by
    refine .afterQuiet (.telling (.say _) (Walk.say_for counter (by simp [toString]))) fun _ => ?_
    refine .beforeQuiet (.indentedIn (·.Holds counter) ?_)
      fun _ => (Enacts.say _).afterQuiet fun _ => .skip _
    refine (Enacts.sayHolding _ counter).afterQuiet fun _ => ?_
    exact (Enacts.record counter).bind fun _ => .slot _
  unfold emitCounted
  dsimp only
  split
  · split
    · exact .afterQuiet (.skip _) hloop
    · exact .afterQuiet (.quiet (Emit.fresh_writes _ rfl) (.fresh _)) hloop
  · exact .afterQuiet (.quiet (Emit.fresh_writes _ rfl) (.fresh _)) hloop

/-- The guard is declared before the loop and recorded at the start of the body. -/
theorem emitConditional_plays : Plays follow node [.record, .slot "body"]
    (settings.emitConditional (·.forM follow) node ran) := by
  refine .afterQuiet (.quiet (Emit.input_writes _ _ _ nofun) (.input _ _ _)) fun condition => ?_
  refine .afterQuiet (.quiet (Emit.fresh_writes _ rfl) (.fresh _)) fun guard => ?_
  refine .afterQuiet (.quiet (Emit.say_let guard (by simp [toString])) (.say _)) fun _ => ?_
  refine .afterQuiet (.sayHolding _ guard) fun _ => ?_
  -- The guard belongs to the block outside of the loop, which stays open inside of it.
  refine .beforeQuiet (fun state hguard => Enacts.indentedIn (·.Holds guard) ?_ state hguard.enter)
    fun _ => (Enacts.say _).afterQuiet fun _ => .skip _
  refine (Enacts.sayHolding _ guard).afterQuiet fun _ => ?_
  refine (Enacts.sayHolding _ guard).afterQuiet fun _ => ?_
  refine (Enacts.sayHolding _ guard).afterQuiet fun _ => ?_
  exact (Enacts.record guard).bind fun _ => .slot _

theorem emit_plays : Plays follow node [.record, .slot "body", .slot "else"]
    (settings.emit (·.forM follow) node) := by
  have helse (ran : String) : Plays follow node [.slot "else"]
      (if !(node.slot "else").isEmpty then
        Walk.block s!"if (!{ran})" ((node.slot "else").forM follow)
      else pure ()) := by
    cases hslot : node.slot "else" with
    | nil => exact .passSlot hslot (.skip _)
    | cons head rest => exact .block _ (.chains hslot)
  refine .afterQuiet (.quiet (Emit.fresh_writes _ rfl) (.fresh _)) fun ran => ?_
  refine (Enacts.say _).afterQuiet fun _ => ?_
  cases settings.mode with
  | counted => exact (settings.emitCounted_plays ran).bind fun _ => helse ran
  | conditional => exact (settings.emitConditional_plays ran).bind fun _ => helse ran

end Loop

/-- The error is recorded where it is caught. -/
theorem emitAttempt_plays :
    Plays follow node [.slot "try", .record, .slot "catch", .slot "finally"]
      (emitAttempt (·.forM follow) node) := by
  have hcatch : Plays follow node [.slot "catch"]
      (if (node.slot "catch").isEmpty then Walk.say "// error suppressed"
      else (node.slot "catch").forM follow) := by
    cases hslot : node.slot "catch" with
    | nil => exact .passSlot hslot (.say _)
    | cons head rest => exact .chains hslot
  refine (Enacts.say _).afterQuiet fun _ => (Enacts.slot _).indented.bind fun _ => ?_
  refine .afterQuiet (.quiet (Emit.fresh_writes _ rfl) (.fresh _)) fun error => ?_
  refine .afterQuiet (.telling (.say _) (Walk.say_catch error (by simp [toString]))) fun _ => ?_
  refine .bind (.indentedIn (·.Holds error) ((Enacts.record error).bind fun _ => hcatch)) fun _ => ?_
  cases hslot : node.slot "finally" with
  | nil => exact .passSlot hslot (.say _)
  | cons head rest =>
      exact (Enacts.say _).afterQuiet fun _ =>
        (Enacts.chains hslot).indented.beforeQuiet fun _ => .say _

theorem Tick.emit_plays (settings : Tick) :
    Plays follow node [.record, .slot "body"] (settings.emit (·.forM follow) node) :=
  .bind (.lift (Emit.define_writes (Walk.mem_alone node) _ _ rfl) (.define _ _ _)) fun _ =>
    .block _ (.slot _)

theorem emitFanOut_plays : Plays follow node (node.slots.keys.map .slot)
    (emitFanOut (·.forM follow) node) := by
  have hslots : ∀ entry ∈ node.slots.entries, node.slot entry.1 = entry.2 :=
    fun entry hentry => Node.slot_of_mem hentry
  unfold emitFanOut Keyed.keys
  generalize node.slots.entries = entries at hslots
  induction entries with
  | nil => exact .skip ()
  | cons entry entries ih =>
      obtain ⟨hentry, hentries⟩ := List.forall_mem_cons.1 hslots
      exact .bind ((Enacts.say _).afterQuiet fun _ => .chains hentry) fun _ => ih hentries

theorem Memory.replicate_stored (settings : Memory) :
    List.replicate settings.stored Phase.record =
      if (Text.splitPath settings.path).isEmpty then [] else [.record] := by
  unfold stored
  split <;> rfl

end Kind

namespace Emission.Walk

variable {setting : Setting} {follow : String → Walk Unit} {node : Node}

/-- A node whose statements are an action on the context. They do the same whatever becomes of chains,
so it can be traced what they do. -/
theorem dispatch_plays_lift {count : Nat} {action : Emit Unit} {continuation : Continuation}
    (hplain : setting.isPlain node = true) (hrecords : Emit.Records count action)
    (hdispatch : ∀ branch, dispatch setting branch node = do
      Walk.lift action
      return continuation) :
    Plays follow node (List.replicate count .record) (dispatch setting (·.forM follow) node) := by
  have hobeys : Obeys (contextLaw (alone node)) (dispatch setting (fun _ => pure ()) node) :=
    dispatch_obeys hplain (mem_alone node) fun _ => .skip _
  rw [hdispatch] at hobeys ⊢
  have hwrites : Emit.Writes (alone node) action := fun context _ =>
    ⟨(hobeys { context } trivial).1, trivial⟩
  exact .beforeQuiet (.lift hwrites hrecords) fun _ => .skip _

/-- A node whose statements are a control structure. -/
theorem construct_plays {phases : List Phase} {action : Walk Unit}
    (h : Plays follow node phases action) : Plays follow node phases do
      action
      return Continuation.outputs :=
  h.beforeQuiet fun _ => .skip _

/-- The statements of a node go through its phases, unless an emitter of the registry writes them. -/
theorem dispatch_plays (hplain : setting.isPlain node = true) :
    Plays follow node node.phases (dispatch setting (·.forM follow) node) := by
  obtain ⟨id, kind, inputs, outputs, slots⟩ := node
  cases kind with
  | start | merge | taskDefine => exact .skip _
  | branch => exact construct_plays Kind.emitBranch_plays
  | switch settings => exact construct_plays (settings.emit_plays rfl)
  | loop settings => exact construct_plays settings.emit_plays
  | attempt => exact construct_plays Kind.emitAttempt_plays
  | tick settings => exact construct_plays settings.emit_plays
  | fanOut => exact construct_plays Kind.emitFanOut_plays
  | «break» | «continue» => exact dispatch_plays_lift hplain (.say _) fun _ => rfl
  | «return» settings | search settings | byId settings | look settings | best settings
  | move settings | transfer settings | withdraw settings | spawn settings | link settings
  | market settings | tower settings | taskCall settings =>
      exact dispatch_plays_lift hplain settings.emit_records fun _ => rfl
  | harvest settings | build settings | repair settings | upgrade settings | attack settings
  | heal settings => exact dispatch_plays_lift hplain (settings.emit_records _) fun _ => rfl
  | memoryRead settings => exact dispatch_plays_lift hplain settings.emitRead_records fun _ => rfl
  | memoryWrite settings =>
      have h := @dispatch_plays_lift _ follow _ _ _ _ hplain settings.emitWrite_records fun _ => rfl
      rw [settings.replicate_stored] at h
      exact h
  | memoryDelete settings =>
      have h := @dispatch_plays_lift _ follow _ _ _ _ hplain settings.emitDelete_records fun _ => rfl
      rw [settings.replicate_stored] at h
      exact h
  | custom custom =>
      exact dispatch_plays_lift hplain (.warn _ _) fun _ => emitCustom_of_plain hplain rfl

end Emission.Walk

end TickScript
