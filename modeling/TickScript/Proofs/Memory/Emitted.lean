import TickScript.Proofs.Emission.Composition
import TickScript.Proofs.Emission.Locations
import TickScript.Proofs.Memory.Statements

/-!
# Statements that memory nodes write

`Memory.writing` and `Memory.reading` are the statements of the nodes that write and read a location.
`emitWrite_lines` and `emitRead_lines` say that the emitters write the texts of these statements, one
line for each of them, below the lines that are there.
-/

namespace TickScript

open TickScript.Emission TickScript.Text

namespace Store

/-- The name that is given out after some others. -/
def numbered (stem : String) (earlier : Nat) : String := stem ++ "_" ++ Nat.repr (earlier + 1)

/-- Names with different stems are different. -/
theorem numbered_ne {stem other : String} (hstem : '_' ∉ stem.toList) (h : stem ≠ other)
    (earlier otherEarlier : Nat) : numbered stem earlier ≠ numbered other otherEarlier := fun heq =>
  h ((numbered_eq_iff hstem).1 heq).1

/-- What stands for an expression: itself if it is simple, and a constant otherwise. -/
def standing (name expr : String) : Operand := if isSimple expr then .given expr else .held name

/-- The declaration of the constant that stands for an expression, if there is need of one. -/
def holding (name expr : String) : List Statement :=
  if isSimple expr then [] else [.hold name (.given expr)]

/-- Where a memory node finds its location. -/
structure Address where
  /-- The expression below which the location is. -/
  base : String
  keys : List Key
  /-- The declaration of what the keys refer to. -/
  before : List Statement

/-- The line of a statement at an indentation. -/
def line (base : String) (indent : Nat) (statement : Statement) : Line :=
  ⟨indent, statement.text base⟩

/-- The lines of some statements have been written, and some names given out. The values of nodes have
stayed as they were. -/
structure Wrote (base : String) (statements : List Statement) (names : Nat)
    (context final : Context) : Prop where
  page : final.page = (context.lines ++ statements.map (line base context.indent), context.indent,
    context.temps + names)
  values : final.values = context.values

namespace Wrote

variable {base : String} {statements more : List Statement} {names others : Nat}
  {context middle final : Context}

theorem lines (h : Wrote base statements names context final) :
    final.lines = context.lines ++ statements.map (line base context.indent) :=
  congrArg Prod.fst h.page

theorem indent (h : Wrote base statements names context final) : final.indent = context.indent :=
  congrArg (·.2.1) h.page

theorem temps (h : Wrote base statements names context final) :
    final.temps = context.temps + names :=
  congrArg (·.2.2) h.page

theorem refl (base : String) (context : Context) : Wrote base [] 0 context context := by
  refine ⟨?_, rfl⟩
  rw [List.map_nil, List.append_nil]
  rfl

theorem trans (h : Wrote base statements names context middle)
    (hlater : Wrote base more others middle final) :
    Wrote base (statements ++ more) (names + others) context final := by
  refine ⟨?_, hlater.values.trans h.values⟩
  rw [hlater.page, h.lines, h.indent, h.temps, List.map_append, List.append_assoc, Nat.add_assoc]

theorem push (base : String) (statement : Statement) (context : Context) :
    Wrote base [statement] 0 context (context.push (statement.text base)) := ⟨rfl, rfl⟩

/-- A declaration with a new name. -/
theorem declare (base stem : String) (statement : Statement) (context : Context) :
    Wrote base [statement] 1 context ((context.issue stem).push (statement.text base)) := ⟨rfl, rfl⟩

theorem input (base : String) (node : Node) (name : String) (fallback : Literal)
    (context : Context) :
    Wrote base [] 0 context ((Emit.input node name fallback).run context).2 :=
  ⟨(Emit.input_page node name fallback context).trans (refl base context).page,
    Emit.input_values node name fallback context⟩

/-- A list of lines, each of them a statement. -/
theorem forM {α : Type} {items : List α} {action : α → Emit PUnit} {statement : α → Statement}
    (h : ∀ item context, Wrote base [statement item] 0 context ((action item).run context).2)
    (context : Context) :
    Wrote base (items.map statement) 0 context ((items.forM action).run context).2 := by
  induction items generalizing context with
  | nil => exact refl base context
  | cons item items ih => exact (h item context).trans (ih _)

/-- An expression is bound to what stands for it. -/
theorem bind (base stem expr : String) (context : Context) :
    ((Emit.bind stem expr).run context).1 = (standing (numbered stem context.temps) expr).text ∧
      Wrote base (holding (numbered stem context.temps) expr)
        (holding (numbered stem context.temps) expr).length context
        ((Emit.bind stem expr).run context).2 := by
  unfold Emit.bind standing holding
  cases isSimple expr with
  | true => exact ⟨rfl, refl base context⟩
  | false =>
      exact ⟨rfl, declare base stem (.hold (numbered stem context.temps) (.given expr)) context⟩

end Wrote

/-- An input that is asked for later is the same, and asking for it writes nothing. -/
theorem Wrote.asked {base : String} {statements : List Statement} {names : Nat}
    {context middle : Context} (h : Wrote base statements names context middle) (node : Node)
    (name : String) (fallback : Literal) :
    ((Emit.input node name fallback).run middle).1 =
        ((Emit.input node name fallback).run context).1 ∧
      Wrote base statements names context ((Emit.input node name fallback).run middle).2 := by
  have hlater := h.trans (.input base node name fallback middle)
  rw [List.append_nil, Nat.add_zero] at hlater
  exact ⟨Emit.input_congr h.values node name fallback, hlater⟩

end Store

namespace Kind.Memory

open TickScript.Store

/-- The expression for the room whose memory is meant. -/
def room (node : Node) (context : Context) : String :=
  ((Emit.input node "room" (.text (context.actor ++ "." ++ "room"))).run context).1

/-- The expression for the unit whose memory is meant. -/
def owner (node : Node) (context : Context) : String :=
  ((Emit.input node "actor" (.text context.actor)).run context).1

/-- Where a memory node finds its location. -/
def address (settings : Memory) (node : Node) (context : Context) : Address :=
  let keys := (splitPath settings.path).map Key.constant
  match settings.scope with
  | .global => ⟨"Memory", keys, []⟩
  | .room =>
    let name := numbered "room" context.temps
    ⟨"Memory", .constant "rooms" :: .nameOf (standing name (room node context)) :: keys,
      holding name (room node context)⟩
  | .actor =>
    let owner := owner node context
    ⟨s!"{owner}.memory", keys, []⟩

/-- The expression for what is written. -/
def written (settings : Memory) (node : Node) (context : Context) : String :=
  ((Emit.input node "value" settings.value).run context).1

/-- The expression for what is read where nothing is stored, if one is given. -/
def default? (settings : Memory) (node : Node) (context : Context) : Option String :=
  if (node.input? "default").isNone && settings.default.isUndefined then none
  else some ((Emit.input node "default" settings.default).run context).1

/-- The statements of a node that writes a location. -/
def writing (settings : Memory) (node : Node) (context : Context) : List Statement :=
  let address := settings.address node context
  let earlier := context.temps + address.before.length
  let name := numbered "value" earlier
  let value := settings.written node context
  address.before ++ holding name value ++ guards address.keys ++
    stores settings.merge address.keys (standing name value)
      (numbered "prev" (earlier + (holding name value).length))

/-- The constant that holds what has been read. -/
def recalled (settings : Memory) (node : Node) (context : Context) : String :=
  numbered "mem" (context.temps + (settings.address node context).before.length)

/-- The statements of a node that reads a location. -/
def reading (settings : Memory) (node : Node) (context : Context) : List Statement :=
  let address := settings.address node context
  address.before ++ [.recall (settings.recalled node context) address.keys
    ((settings.default? node context).map Operand.given)]

variable {settings : Memory} {node : Node} {context : Context}

/-- A memory node finds its location, and declares what its keys refer to. -/
theorem locate_address (settings : Memory) (node : Node) (context : Context) :
    let location := ((settings.locate node).run context).1
    let address := settings.address node context
    location.base = address.base ∧ location.keys = address.keys.map Key.text ∧
      ∀ base, Wrote base address.before address.before.length context
        ((settings.locate node).run context).2 := by
  have hpath : ((splitPath settings.path).map Key.constant).map Key.text =
      (splitPath settings.path).map quote := by
    rw [List.map_map]
    rfl
  cases hscope : settings.scope with
  | global =>
      unfold locate address
      rw [hscope]
      exact ⟨rfl, hpath.symm, fun base => .refl base context⟩
  | actor =>
      unfold locate address
      rw [hscope]
      exact ⟨rfl, hpath.symm, fun base => .input base node "actor" (.text context.actor) context⟩
  | room =>
      let fallback := Literal.text (context.actor ++ "." ++ "room")
      let asked := ((Emit.input node "room" fallback).run context).2
      have hinput (base : String) : Wrote base [] 0 context asked :=
        .input base node "room" fallback context
      have hbind (base : String) := Wrote.bind base "room" (room node context) asked
      have htemps : asked.temps = context.temps := (hinput "").temps
      rw [htemps] at hbind
      let bound := (Emit.bind "room" (room node context)).run asked
      have hbound : bound.1 = (standing (numbered "room" context.temps) (room node context)).text :=
        (hbind "").1
      have hlocate : (settings.locate node).run context =
          (⟨"Memory", [quote "rooms", s!"{bound.1}.name"], (splitPath settings.path).map quote⟩,
            bound.2) := by
        unfold locate
        rw [hscope]
        rfl
      unfold address
      rw [hlocate, hscope, hbound]
      refine ⟨rfl, ?_, fun base => ?_⟩
      · rw [Location.keys, ← hpath]
        rfl
      · have hboth := (hinput base).trans (hbind base).2
        rwa [List.nil_append, Nat.zero_add] at hboth

/-- The access to the beginning of a location. -/
theorem direct_address {location : Location} {keys : List Key}
    (h : location.keys = keys.map Key.text) (length : Nat) :
    location.direct length = direct location.base (keys.take length) := by
  rw [Location.direct, h, direct, List.map_take]

/-- The access that stops at a missing part. -/
theorem optional_address {location : Location} {keys : List Key}
    (h : location.keys = keys.map Key.text) : location.optional = optional location.base keys := by
  rw [Location.optional, h]
  rfl

/-- The guards are written one after the other. -/
theorem wrote_emitParents {location : Location} {keys : List Key}
    (h : location.keys = keys.map Key.text) (context : Context) :
    Wrote location.base (guards keys) 0 context ((emitParents location).run context).2 := by
  have hlength : location.keys.length = keys.length := by rw [h, List.length_map]
  rw [emitParents, hlength]
  refine .forM (fun length context => ?_) context
  rw [direct_address h]
  exact .push location.base (.prepare (keys.take length)) context

/-- Storing a value is one statement, or two if the value is merged into what is there. -/
theorem wrote_emitStore {location : Location} {keys : List Key}
    (h : location.keys = keys.map Key.text) (settings : Memory) (value : Operand)
    (context : Context) : ∃ names,
      Wrote location.base (stores settings.merge keys value (numbered "prev" context.temps)) names
        context ((settings.emitStore location value.text).run context).2 := by
  have hwhole : location.direct location.keys.length = direct location.base keys := by
    rw [direct_address h, h, List.length_map, List.take_length]
  rw [emitStore, hwhole, stores]
  cases settings.merge with
  | false => exact ⟨0, .push location.base (.assign keys value) context⟩
  | true =>
      let old := numbered "prev" context.temps
      exact ⟨1, (Wrote.declare location.base "prev" (.fetch old keys) context).trans
        (.push location.base (.merge keys (.held old) value) _)⟩

/-- What a node does that writes a location, one thing after the other. -/
theorem run_emitWrite (hpath : splitPath settings.path ≠ []) (node : Node) (context : Context) :
    ((settings.emitWrite node).run context).2 =
      let located := (settings.locate node).run context
      let value := (Emit.input node "value" settings.value).run located.2
      let bound := (Emit.bind "value" value.1).run value.2
      let made := (emitParents located.1).run bound.2
      let stored := (settings.emitStore located.1 bound.1).run made.2
      stored.2.record node.id bound.1 := by
  have hfull : ¬ ((settings.locate node).run context).1.pathKeys.isEmpty = true := by
    rw [settings.pathKeys_locate, List.isEmpty_iff, List.map_eq_nil_iff]
    exact hpath
  unfold emitWrite
  rw [StateT.run_bind]
  dsimp only [bind]
  rw [if_neg hfull]
  rfl

/-- A node that writes a location writes the statements of the write. -/
theorem emitWrite_lines (hpath : splitPath settings.path ≠ []) (node : Node) (context : Context) :
    ((settings.emitWrite node).run context).2.lines = context.lines ++
      (settings.writing node context).map (line (settings.address node context).base context.indent) := by
  obtain ⟨hbase, hkeys, hbefore⟩ := settings.locate_address node context
  rw [run_emitWrite hpath, ← hbase]
  generalize (settings.locate node).run context = located at hkeys hbefore ⊢
  dsimp only
  obtain ⟨hvalue, hasked⟩ := (hbefore located.1.base).asked node "value" settings.value
  generalize (Emit.input node "value" settings.value).run located.2 = value at hvalue hasked ⊢
  change value.1 = settings.written node context at hvalue
  obtain ⟨hname, hbound⟩ := Wrote.bind located.1.base "value" value.1 value.2
  rw [hasked.temps, hvalue] at hname hbound
  have hmade := (hasked.trans hbound).trans (wrote_emitParents hkeys _)
  obtain ⟨names, hstored⟩ := wrote_emitStore hkeys settings
    (standing (numbered "value" (context.temps + (settings.address node context).before.length))
      (settings.written node context))
    ((emitParents located.1).run ((Emit.bind "value" value.1).run value.2).2).2
  rw [hvalue, ← hname, hmade.temps, Nat.add_zero, ← Nat.add_assoc] at hstored
  rw [hvalue]
  exact (hmade.trans hstored).lines

/-- A node that reads a location writes the statements of the read, and its value is the constant
that holds what has been read. -/
theorem emitRead_lines (settings : Memory) (node : Node) (context : Context) :
    let final := ((settings.emitRead node).run context).2
    final.lines = context.lines ++
      (settings.reading node context).map (line (settings.address node context).base context.indent) ∧
    final.valueOf? node.id = some (settings.recalled node context) := by
  obtain ⟨hbase, hkeys, hbefore⟩ := settings.locate_address node context
  let located := (settings.locate node).run context
  obtain ⟨hdefault, hasked⟩ := (hbefore located.1.base).asked node "default" settings.default
  let default := (Emit.input node "default" settings.default).run located.2
  let access := located.1.optional
  let read :=
    if (node.input? "default").isNone && settings.default.isUndefined then access
    else s!"{access} ?? {default.1}"
  let name := default.2.nextName "mem"
  have hrun : ((settings.emitRead node).run context).2 =
      ((default.2.issue "mem").push s!"const {name} = {read};").record node.id name := rfl
  have hname : name = settings.recalled node context := by
    unfold name
    rw [Context.nextName, hasked.temps]
    rfl
  have hread : s!"const {name} = {read};" =
      (Statement.recall name (settings.address node context).keys
        ((settings.default? node context).map Operand.given)).text located.1.base := by
    have haccess : access = optional located.1.base (settings.address node context).keys :=
      optional_address hkeys
    change default.1 = _ at hdefault
    simp only [read, haccess, hdefault, default?]
    split <;> rfl
  have hsaid := hasked.trans (.declare located.1.base "mem" (.recall name
    (settings.address node context).keys ((settings.default? node context).map Operand.given)) _)
  rw [← hread, hname] at hsaid
  rw [hname] at hrun
  refine ⟨?_, ?_⟩
  · rw [hrun, ← hbase]
    exact hsaid.lines
  · rw [hrun]
    exact List.lookup_cons_self

end Kind.Memory

end TickScript
