import TickScript.Emission.Walk
import TickScript.Proofs.Emission.Scope
import TickScript.Proofs.Text.Identifier

/-!
# What statements are composed of

`Composes` lists all that the statements of nodes do to a context: write lines, also one level
deeper, give out names, import, warn, ask for the values of nodes, take literals for want of values
and record values. A value is recorded under a name that is in scope, or a memory node passes a simple
expression on. `Composed` says of an action that it obeys a law, that is, does no more than some
relation between states allows. For contexts the relation is `Composes`. For walks it can be any that
statements cannot break. The rules follow the operations of `Emit` and `Walk`.
-/

namespace TickScript

/-- The kinds that change the memory. They pass a simple expression on as their value. -/
def Kind.isStore : Kind → Bool
  | .memoryWrite _ | .memoryDelete _ => true
  | _ => false

/-- The inputs that are undefined if nothing is given for them, and that the statements of a node do
not warn of. -/
def Kind.openInputs : Kind → List String
  | .memoryRead settings => if settings.default.isUndefined then ["default"] else []
  | .market settings =>
    (if settings.amount.isNone then ["amount"] else []) ++
      (if settings.mode ≠ .deal ∧ settings.price.isNone then ["price"] else [])
  | kind => kind.requiredInputs

namespace Emission

/-- The warning about an input whose node has not recorded a value. -/
def missingValue (source port : String) : String :=
  s!"input references node '{source}' (port '{port}') which has not produced a value"

/-- The library functions that statements call. -/
def helpers : List String := ["travelTo", "findClosestByRange", "findClosestByPath"]

/-- What the statements of the nodes of a table do to a context. -/
inductive Composes (table : NodeTable) : Context → Context → Prop where
  | done (context : Context) : Composes table context context
  | say {context final : Context} (text : String) :
      Composes table (context.push text) final → Composes table context final
  | deeper {context middle final : Context} :
      Composes table context.enter middle → Composes table middle.exit final →
        Composes table context final
  | fresh {context final : Context} (stem : String) :
      Text.isStem stem = true → Composes table (context.issue stem) final →
        Composes table context final
  | require {context final : Context} (symbol module : String) :
      symbol ∈ helpers → Composes table (context.withImport symbol module) final →
        Composes table context final
  | warn {context final : Context} (nodeId message : String) :
      Composes table (context.warn nodeId message) final → Composes table context final
  | found {context final : Context} (consumer source port expr : String) :
      context.valueOf? source = some expr →
        Composes table (context.ask consumer source port) final → Composes table context final
  | missed {context final : Context} (consumer source port : String) :
      context.valueOf? source = none →
        Composes table ((context.ask consumer source port).warn consumer (missingValue source port))
          final →
        Composes table context final
  | standIn {context final : Context} (node : Node) (input : String) (literal : Literal) :
      node.input? input = none →
        (literal.isUndefined = true → node ∈ table.values ∧ input ∈ node.kind.openInputs) →
        Composes table (context.standIn node.id input literal) final → Composes table context final
  | warned {context final : Context} (node : Node) (input : String) (literal : Literal)
      (message : String) :
      node.input? input = none → node ∈ table.values →
        Composes table ((context.standIn node.id input literal).warn node.id message) final →
        Composes table context final
  | record {context final : Context} (node : Node) (expr : String) :
      node ∈ table.values →
        context.Holds expr ∨ node.kind.isStore = true ∧ Text.isSimple expr = true →
        Composes table (context.record node.id expr) final → Composes table context final

variable {table : NodeTable}

namespace Composes

variable {context middle final : Context}

theorem trans (h : Composes table context middle) (hlater : Composes table middle final) :
    Composes table context final := by
  induction h with
  | done => exact hlater
  | say text _ ih => exact .say text (ih hlater)
  | deeper hbody _ _ ih => exact .deeper hbody (ih hlater)
  | fresh stem hstem _ ih => exact .fresh stem hstem (ih hlater)
  | require symbol module hsymbol _ ih => exact .require symbol module hsymbol (ih hlater)
  | warn nodeId message _ ih => exact .warn nodeId message (ih hlater)
  | found consumer source port expr hfound _ ih =>
      exact .found consumer source port expr hfound (ih hlater)
  | missed consumer source port hmissed _ ih => exact .missed consumer source port hmissed (ih hlater)
  | standIn node input literal hnone hopen _ ih =>
      exact .standIn node input literal hnone hopen (ih hlater)
  | warned node input literal message hnone hnode _ ih =>
      exact .warned node input literal message hnone hnode (ih hlater)
  | record node expr hnode hexpr _ ih => exact .record node expr hnode hexpr (ih hlater)

/-- Statements only add lines, none of them outside of the block that they stand in. -/
theorem grows (h : Composes table context final) : context.Grows final := by
  induction h with
  | done => exact .refl _
  | say text _ ih => exact (Context.Grows.push _ text).trans ih
  | deeper _ _ ihbody ih => exact ihbody.deeper.trans ih
  | fresh _ _ _ ih => exact ih.congr rfl rfl
  | require _ _ _ _ ih => exact ih.congr rfl rfl
  | warn _ _ _ ih => exact ih.congr rfl rfl
  | found _ _ _ _ _ _ ih => exact ih.congr rfl rfl
  | missed _ _ _ _ _ ih => exact ih.congr rfl rfl
  | standIn _ _ _ _ _ _ ih => exact ih.congr rfl rfl
  | warned _ _ _ _ _ _ _ ih => exact ih.congr rfl rfl
  | record _ _ _ _ _ ih => exact ih.congr rfl rfl

end Composes

/-- What actions may do to states that contain a context: a relation between the states before and
after. It allows to do nothing and to do one thing after another, and only to add lines. -/
structure Law {σ : Type} (view : σ → Context) where
  Related : σ → σ → Prop
  refl : ∀ state, Related state state
  trans : ∀ {state middle final}, Related state middle → Related middle final → Related state final
  grows : ∀ {state final}, Related state final → (view state).Grows (view final)

/-- `Composed law before action after` says that an action, from states whose context meets a
condition, obeys a law, and what holds of its result and the context afterwards. -/
def Composed {σ α : Type} {view : σ → Context} (law : Law view) (before : Context → Prop)
    (action : StateM σ α) (after : α → Context → Prop) : Prop :=
  ∀ state, before (view state) → law.Related state (action.run state).2 ∧
    after (action.run state).1 (view (action.run state).2)

namespace Composed

variable {σ α β : Type} {view : σ → Context} {law : Law view} {before : Context → Prop}

theorem pure {value : α} {after : α → Context → Prop}
    (h : ∀ context, before context → after value context) :
    Composed law before (Pure.pure value) after := fun state hbefore =>
  ⟨law.refl state, h _ hbefore⟩

theorem bind {action : StateM σ α} {next : α → StateM σ β} {between : α → Context → Prop}
    {after : β → Context → Prop} (haction : Composed law before action between)
    (hnext : ∀ value, Composed law (between value) (next value) after) :
    Composed law before (action >>= next) after := by
  intro state hbefore
  obtain ⟨hfirst, hbetween⟩ := haction state hbefore
  obtain ⟨hlater, hafter⟩ := hnext _ _ hbetween
  exact ⟨law.trans hfirst hlater, hafter⟩

/-- A name that is in scope before is in scope afterwards. -/
theorem holding {action : StateM σ α} (h : Composed law (fun _ => True) action fun _ _ => True)
    (name : String) :
    Composed law (·.Holds name) action fun _ context => context.Holds name := by
  intro state hname
  obtain ⟨hrelated, -⟩ := h state trivial
  exact ⟨hrelated, (law.grows hrelated).holds hname⟩

/-- A condition that is not needed. -/
theorem forget {action : StateM σ α} {after : α → Context → Prop}
    (h : Composed law (fun _ => True) action after) : Composed law before action after :=
  fun state _ => h state trivial

/-- An action that does nothing. -/
theorem skip (value : α) : Composed law before (Pure.pure value : StateM σ α) fun _ _ => True :=
  pure fun _ _ => trivial

/-- The same for every item of a list. -/
theorem forM {items : List α} {action : α → StateM σ PUnit}
    (h : ∀ item, Composed law (fun _ => True) (action item) fun _ _ => True) :
    Composed law (fun _ => True) (items.forM action) fun _ _ => True := by
  induction items with
  | nil => exact skip _
  | cons item items ih => exact (h item).bind fun _ => ih

end Composed

/-! ## Actions on contexts -/

/-- What the next lines are put together with: the lines so far, the indentation and the number of
names that have been given out. -/
def Context.page (context : Context) : List Line × Nat × Nat :=
  (context.lines, context.indent, context.temps)

namespace Emit

/-- What statements may do to a context. -/
def law (table : NodeTable) : Law fun context : Context => context where
  Related := Composes table
  refl := Composes.done
  trans := Composes.trans
  grows := Composes.grows

/-- An action on contexts does to them what statements do. -/
abbrev Writes {α : Type} (table : NodeTable) (action : Emit α) : Prop :=
  Composed (law table) (fun _ => True) action fun _ _ => True

variable {α : Type} {node : Node}

theorem say_writes (text : String) : Writes table (say text) := fun _ _ =>
  ⟨.say text (.done _), trivial⟩

theorem fresh_writes (stem : String) (hstem : Text.isStem stem = true) :
    Writes table (fresh stem) := fun _ _ =>
  ⟨.fresh stem hstem (.done _), trivial⟩

theorem warn_writes (nodeId message : String) : Writes table (warn nodeId message) := fun _ _ =>
  ⟨.warn nodeId message (.done _), trivial⟩

theorem require_writes (symbol module : String) (hsymbol : symbol ∈ helpers) :
    Writes table (require symbol module) := fun _ _ =>
  ⟨.require symbol module hsymbol (.done _), trivial⟩

theorem actor_writes : Writes table actor := fun _ _ => ⟨.done _, trivial⟩

/-- A member of the acting unit is always defined. -/
theorem actorMember_writes (member : String) :
    Composed (law table) (fun _ => True) (actorMember member)
      fun literal _ => literal.isUndefined = false :=
  actor_writes.bind fun _ => .pure fun _ _ => rfl

/-- An input that is connected to a node is the value recorded for it, or `undefined` with a warning
if there is none. -/
theorem resolve_edge (consumer source port : String) (fallback : Literal) (context : Context) :
    (resolve consumer (some (.edge source port)) fallback).run context =
      match context.valueOf? source with
      | some expr => (expr, context.ask consumer source port)
      | none => (unresolved,
          (context.ask consumer source port).warn consumer (missingValue source port)) := by
  change StateT.run (match context.valueOf? source with
    | some expr => (pure expr : Emit String)
    | none => do
      warn consumer (missingValue source port)
      return unresolved) (context.ask consumer source port) = _
  cases context.valueOf? source <;> rfl

theorem resolve_writes (consumer : String) (port : Option Port) (fallback : Literal) :
    Writes table (resolve consumer port fallback) := by
  match port with
  | none => exact .skip _
  | some (.literal value) => exact .skip _
  | some (.edge source name) =>
      intro context _
      rw [resolve_edge]
      cases hvalue : context.valueOf? source with
      | some expr => exact ⟨.found consumer source name expr hvalue (.done _), trivial⟩
      | none => exact ⟨.missed consumer source name hvalue (.done _), trivial⟩

/-- To resolve an input is at most to ask for a value and to warn. -/
theorem resolve_frame (consumer : String) (port : Option Port) (fallback : Literal)
    (context : Context) : ∃ accesses diagnostics,
      ((resolve consumer port fallback).run context).2 = { context with accesses, diagnostics } := by
  match port with
  | none => exact ⟨_, _, rfl⟩
  | some (.literal value) => exact ⟨_, _, rfl⟩
  | some (.edge source name) =>
      rw [resolve_edge]
      cases context.valueOf? source with
      | some expr => exact ⟨_, _, rfl⟩
      | none => exact ⟨_, _, rfl⟩

/-- An input that nothing is given for is its fallback. -/
theorem input_of_none {name : String} (h : node.input? name = none) (fallback : Literal)
    (context : Context) : (input node name fallback).run context =
      (fallback.render, context.standIn node.id name fallback) := by
  unfold input
  rw [h]
  rfl

/-- An input that something is given for is resolved. -/
theorem input_of_some {name : String} {port : Port} (h : node.input? name = some port)
    (fallback : Literal) : input node name fallback = resolve node.id (some port) fallback := by
  unfold input
  rw [h]
  rfl

/-- An input changes nothing but what was asked for, what stood in and the warnings. -/
theorem input_frame (node : Node) (name : String) (fallback : Literal) (context : Context) :
    ∃ accesses standIns diagnostics, ((input node name fallback).run context).2 =
      { context with accesses, standIns, diagnostics } := by
  cases hport : node.input? name with
  | none =>
      rw [input_of_none hport]
      exact ⟨_, _, _, rfl⟩
  | some port =>
      rw [input_of_some hport]
      obtain ⟨accesses, diagnostics, hfinal⟩ := resolve_frame node.id (some port) fallback context
      exact ⟨accesses, _, diagnostics, hfinal⟩

/-- An input leaves the page as it is. -/
theorem input_page (node : Node) (name : String) (fallback : Literal) (context : Context) :
    ((input node name fallback).run context).2.page = context.page := by
  obtain ⟨accesses, standIns, diagnostics, hfinal⟩ := input_frame node name fallback context
  rw [hfinal]
  rfl

/-- An input records no value. -/
theorem input_values (node : Node) (name : String) (fallback : Literal) (context : Context) :
    ((input node name fallback).run context).2.values = context.values := by
  obtain ⟨accesses, standIns, diagnostics, hfinal⟩ := input_frame node name fallback context
  rw [hfinal]

/-- What an input is depends on the values of nodes only. -/
theorem input_congr {context other : Context} (h : other.values = context.values) (node : Node)
    (name : String) (fallback : Literal) :
    ((input node name fallback).run other).1 = ((input node name fallback).run context).1 := by
  cases hport : node.input? name with
  | none => rw [input_of_none hport, input_of_none hport]
  | some port =>
      rw [input_of_some hport]
      cases port with
      | literal value => rfl
      | edge source port =>
          have hvalue : other.valueOf? source = context.valueOf? source := by
            rw [Context.valueOf?, h, Context.valueOf?]
          rw [resolve_edge, resolve_edge, hvalue]
          cases context.valueOf? source <;> rfl

/-- An input is undefined only if the kind of its node leaves it open. -/
theorem input_writes (node : Node) (name : String) (fallback : Literal)
    (hopen : node.input? name = none → fallback.isUndefined = true →
      node ∈ table.values ∧ name ∈ node.kind.openInputs) :
    Writes table (input node name fallback) := by
  cases hport : node.input? name with
  | none =>
      intro context _
      rw [input_of_none hport]
      exact ⟨.standIn _ _ _ hport (hopen hport) (.done _), trivial⟩
  | some port =>
      rw [input_of_some hport]
      exact resolve_writes _ _ _

/-- An input with a fallback is not undefined. -/
theorem input_defined (node : Node) (name : String) (fallback : Literal) :
    Composed (law table) (fun _ => fallback.isUndefined = false) (input node name fallback)
      fun _ _ => True := by
  intro context hdefined
  refine input_writes node name fallback (fun _ hundefined => ?_) context trivial
  rw [hdefined] at hundefined
  cases hundefined

theorem optionalInput_writes (node : Node) (name : String) (fallback : Literal)
    (hopen : node.input? name = none → fallback.isUndefined = true →
      node ∈ table.values ∧ name ∈ node.kind.openInputs) :
    Writes table (optionalInput node name fallback) :=
  (input_writes node name fallback hopen).bind fun _ => .skip _

theorem actorInput_writes (node : Node) : Writes table (actorInput node) :=
  actor_writes.bind fun _ => input_writes _ _ _ nofun

/-- A constant is in scope after its declaration. -/
theorem say_const (name : String) {text : String}
    (htext : ("const " ++ name ++ " = ").toList <+: text.toList) :
    Composed (law table) (fun _ => True) (say text)
      fun _ context => context.Holds name := fun _ _ =>
  ⟨.say text (.done _), Context.holds_push (by simp) htext⟩

/-- A variable is in scope after its declaration. -/
theorem say_let (name : String) {text : String}
    (htext : ("let " ++ name ++ " = ").toList <+: text.toList) :
    Composed (law table) (fun _ => True) (say text)
      fun _ context => context.Holds name := fun _ _ =>
  ⟨.say text (.done _), Context.holds_push (by simp) htext⟩

/-- A value is recorded under a name that is in scope. -/
theorem produce_writes (hnode : node ∈ table.values) (name : String) :
    Composed (law table) (·.Holds name) (produce node.id name)
      fun _ _ => True := fun _ hname =>
  ⟨.record node name hnode (.inl hname) (.done _), trivial⟩

/-- A memory node passes a simple expression on. -/
theorem store_writes (hnode : node ∈ table.values) (hkind : node.kind.isStore = true)
    {expr : String} (hsimple : Text.isSimple expr = true) :
    Writes table (produce node.id expr) := fun _ _ =>
  ⟨.record node expr hnode (.inr ⟨hkind, hsimple⟩) (.done _), trivial⟩

theorem define_writes (hnode : node ∈ table.values) (stem expr : String)
    (hstem : Text.isStem stem = true) : Writes table (define node stem expr) :=
  (fresh_writes stem hstem).bind fun name =>
    (say_const name (by simp [toString])).bind fun _ =>
      (produce_writes hnode name).bind fun _ => .skip _

/-- What stands for an expression is simple or a constant. -/
theorem bind_holds (stem expr : String) (hstem : Text.isStem stem = true) :
    Composed (law table) (fun _ => True) (bind stem expr)
      fun name context => context.Holds name ∨ Text.isSimple name = true := by
  unfold bind
  split
  · next hsimple => exact .pure fun _ _ => .inr hsimple
  · exact (fresh_writes stem hstem).bind fun name => (say_const name (by simp [toString])).bind fun _ =>
      .pure fun _ hname => .inl hname

theorem bind_writes (stem expr : String) (hstem : Text.isStem stem = true) :
    Writes table (bind stem expr) := fun context _ =>
  ⟨(bind_holds stem expr hstem context trivial).1, trivial⟩

theorem block_writes (header : String) {body : Emit α} (hbody : Writes table body) :
    Writes table (block header body) := fun _ _ =>
  ⟨.say _ (.deeper (hbody _ trivial).1 (.say _ (.done _))), trivial⟩

end Emit

/-! ## Actions of walks -/

namespace Walk

/-- What an action of a walk may do to its state. What statements do to the context is allowed, also
around something that is done one level deeper. -/
structure Law (table : NodeTable) extends Emission.Law State.context where
  context : ∀ state {context}, Composes table state.context context →
    Related state { state with context }
  deeper : ∀ {state middle}, Related { state with context := state.context.enter } middle →
    Related state { middle with context := middle.context.exit }

variable {α : Type} {law : Law table}

/-- An action of a walk obeys a law. -/
abbrev Obeys (law : Law table) (action : Walk α) : Prop :=
  Composed law.toLaw (fun _ => True) action fun _ _ => True

/-- The law that the context is changed as statements do, whatever becomes of the rest. -/
def contextLaw (table : NodeTable) : Law table where
  Related := fun state final => Composes table state.context final.context
  refl := fun state => .done state.context
  trans := Composes.trans
  grows := Composes.grows
  context := fun _ _ h => h
  deeper := fun h => .deeper h (.done _)

/-- An action of a walk does to the context what statements do. -/
abbrev Writes (table : NodeTable) (action : Walk α) : Prop := Obeys (contextLaw table) action

theorem lift_composed {action : Emit α} {before : Context → Prop} {after : α → Context → Prop}
    (h : Composed (Emit.law table) before action after) :
    Composed law.toLaw before (lift action) after := fun state hbefore =>
  ⟨law.context state (h state.context hbefore).1, (h state.context hbefore).2⟩

theorem say_obeys (text : String) : Obeys law (say text) := lift_composed (Emit.say_writes text)

/-- The counter of a loop is in scope inside of the block that its header opens. -/
theorem say_for (name : String) {text : String}
    (htext : ("for (let " ++ name ++ " = ").toList <+: text.toList) :
    Composed law.toLaw (fun _ => True) (say text) fun _ context => context.enter.Holds name :=
  fun state _ => ⟨(say_obeys text state trivial).1, Context.holds_enter (by simp) htext⟩

/-- A caught error is in scope inside of the block that its header opens. -/
theorem say_catch (name : String) {text : String}
    (htext : ("\x7d catch (" ++ name ++ ") \x7b").toList <+: text.toList) :
    Composed law.toLaw (fun _ => True) (say text) fun _ context => context.enter.Holds name :=
  fun state _ => ⟨(say_obeys text state trivial).1, Context.holds_enter (by simp) htext⟩

theorem indented_obeys {body : Walk α} (hbody : Obeys law body) : Obeys law (indented body) :=
  fun state _ =>
    ⟨law.deeper (hbody { state with context := state.context.enter } trivial).1, trivial⟩

/-- What is done one level deeper may rely on a name that is in scope there. -/
theorem indented_holding {name : String} {body : Walk α}
    (hbody : Composed law.toLaw (·.Holds name) body fun _ _ => True) :
    Composed law.toLaw (·.enter.Holds name) (indented body) fun _ _ => True := fun state hname =>
  ⟨law.deeper (hbody { state with context := state.context.enter } hname).1, trivial⟩

theorem block_obeys (header : String) {body : Walk α} (hbody : Obeys law body) :
    Obeys law (block header body) :=
  (say_obeys _).bind fun _ => (indented_obeys hbody).bind fun _ => (say_obeys _).bind fun _ =>
    .skip _

end Walk

end Emission

end TickScript
