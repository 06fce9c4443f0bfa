import TickScript.Proofs.Emission.Temporaries

/-!
# Names in their turn

An `Operation` is anything that may be done with a context. Some operations give out temporary
names, by themselves or in the body of a block, and `Operation.stems` are the stems that they ask
for. The main statement is `temporaries_unique`: whatever is done in between, each call gets its
stem with the next number, so no name is given out twice. A counter that is a word of 32 bits gives
the same names, exactly as long as all numbers fit in such words.
-/

namespace TickScript.Emission

/-! ## Operations -/

/-- An operation on a context that asks for no name. -/
inductive Aside where
  /-- Look at the context, be it at its lines, its values, its imports or its warnings. -/
  | look
  | say (text : String)
  | enter
  | exit
  | takeLines
  | produce (nodeId expr : String)
  | resolve (consumer : String) (port : Option Port) (fallback : Literal)
  | input (node : Node) (name : String) (fallback : Literal)
  | require (symbol module : String)
  | warn (nodeId message : String)
  /-- Take over a task body, which has been written in a context of its own. -/
  | absorb (finished : Context)

/-- An operation on a context. -/
inductive Operation where
  | temp (stem : String)
  | bind (stem expr : String)
  | block (header : String) (body : List Operation)
  | aside (action : Aside)

/-- Carry out an operation that asks for no name. -/
def Aside.perform : Aside → Emit Unit
  | .look => discard get
  | .say text => Emit.say text
  | .enter => modify Context.enter
  | .exit => modify Context.exit
  | .takeLines => modify Context.takeLines
  | .produce nodeId expr => Emit.produce nodeId expr
  | .resolve consumer port fallback => discard (Emit.resolve consumer port fallback)
  | .input node name fallback => discard (Emit.input node name fallback)
  | .require symbol module => discard (Emit.require symbol module)
  | .warn nodeId message => Emit.warn nodeId message
  | .absorb finished => modify (·.absorb finished)

mutual

/-- Carry out an operation. The result is the list of temporary names that it gives out. -/
def Operation.perform : Operation → Emit (List String)
  | .temp stem => do return [← Emit.fresh stem]
  | .bind stem expr => do
    let result ← Emit.bind stem expr
    return if Text.isSimple expr then [] else [result]
  | .block header body => Emit.block header (performAll body)
  | .aside action => do
    action.perform
    return []

/-- Carry out operations one after the other. -/
def performAll : List Operation → Emit (List String)
  | [] => return []
  | operation :: operations => do
    let names ← operation.perform
    let more ← performAll operations
    return names ++ more

end

mutual

/-- The stems of the names that an operation asks for. -/
def Operation.stems : Operation → List String
  | .temp stem => [stem]
  | .bind stem expr => if Text.isSimple expr then [] else [stem]
  | .block _ body => stemsOfAll body
  | .aside _ => []

/-- The stems of the names that operations ask for, one after the other. -/
def stemsOfAll : List Operation → List String
  | [] => []
  | operation :: operations => operation.stems ++ stemsOfAll operations

end

/-! ## Numbers -/

/-- The names for some stems when a number of names have been given out. -/
def numberedFrom (given : Nat) (stems : List String) : List String :=
  stems.mapIdx fun index stem => stem ++ "_" ++ Nat.repr (given + index + 1)

section Numbers

variable {given : Nat} {stem : String} {stems more : List String}

theorem numberedFrom_cons :
    numberedFrom given (stem :: stems) =
      (stem ++ "_" ++ Nat.repr (given + 1)) :: numberedFrom (given + 1) stems := by
  rw [numberedFrom, List.mapIdx_cons, numberedFrom]
  simp only [Nat.add_zero, Nat.add_assoc, Nat.add_comm 1]

theorem numberedFrom_append :
    numberedFrom given (stems ++ more) =
      numberedFrom given stems ++ numberedFrom (given + stems.length) more := by
  rw [numberedFrom, List.mapIdx_append, numberedFrom, numberedFrom]
  simp only [Nat.add_assoc, Nat.add_comm, Nat.add_left_comm]

/-- Names with numbers that follow each other are different, whatever their stems are. -/
theorem numberedFrom_nodup (given : Nat) (stems : List String) :
    (numberedFrom given stems).Nodup := by
  rw [List.nodup_iff_injective_getElem]
  intro first second hsame
  simp only [numberedFrom, List.getElem_mapIdx] at hsame
  have hnumber := Text.number_eq_of_eq hsame
  exact Fin.ext (by omega)

end Numbers

/-! ## Words -/

/-- The word after a word, unless it would overflow. -/
def successor? (counter : UInt32) : Option UInt32 :=
  if counter.toNat + 1 < UInt32.size then some (counter + 1) else none

/-- The names for some stems when the counter is a word. One that overflows gives no names. -/
def wordNames? (counter : UInt32) : List String → Option (List String)
  | [] => some []
  | stem :: stems => do
    let next ← successor? counter
    let names ← wordNames? next stems
    return (stem ++ "_" ++ toString next) :: names

/-- A word counts as a number does, as long as the numbers fit in words. -/
theorem wordNames?_eq (counter : UInt32) (stems : List String) :
    wordNames? counter stems =
      if counter.toNat + stems.length < UInt32.size then some (numberedFrom counter.toNat stems)
      else none := by
  induction stems generalizing counter with
  | nil => exact (if_pos counter.toNat_lt_size).symm
  | cons stem stems ih =>
      rw [wordNames?, successor?, List.length_cons, numberedFrom_cons]
      by_cases hnext : counter.toNat + 1 < UInt32.size
      · have hvalue : (counter + 1).toNat = counter.toNat + 1 := by
          rw [UInt32.toNat_add]
          exact Nat.mod_eq_of_lt hnext
        have hshown : toString (counter + 1) = Nat.repr (counter.toNat + 1) :=
          congrArg Nat.repr hvalue
        rw [if_pos hnext, Option.bind_eq_bind, Option.bind_some, ih, hvalue, hshown,
          Nat.add_right_comm, Nat.add_assoc]
        split <;> rfl
      · rw [if_neg hnext, if_neg (by omega)]
        rfl

/-- No name follows the one with the last number of a word. -/
example : wordNames? 4294967294 ["tmp", "tmp"] = none := by decide

/-! ## Operations and their names -/

/-- An action gives out the names for some stems, with the numbers that are next. -/
def Emit.Names (stems : List String) (action : Emit (List String)) : Prop :=
  ∀ context : Context,
    (action.run context).1 = numberedFrom context.temps stems ∧
      (action.run context).2.temps = context.temps + stems.length

namespace Emit

variable {stems more : List String}

theorem Names.nothing : Names [] (pure []) := fun _ => ⟨rfl, rfl⟩

theorem Names.append {action next : Emit (List String)} (haction : Names stems action)
    (hnext : Names more next) : Names (stems ++ more) do
      let names ← action
      let others ← next
      return names ++ others := fun context => by
  obtain ⟨hnames, htemps⟩ := haction context
  obtain ⟨hothers, hfinal⟩ := hnext (action.run context).2
  rw [htemps] at hothers hfinal
  constructor
  · exact (congrArg₂ (· ++ ·) hnames hothers).trans numberedFrom_append.symm
  · exact hfinal.trans (by rw [List.length_append, Nat.add_assoc])

theorem Names.block {body : Emit (List String)} (hbody : Names stems body) (header : String) :
    Names stems (block header body) := fun context =>
  -- The counter is where it was when the body begins, and nothing behind the body changes it.
  hbody (context.push (header ++ " \x7b")).enter

theorem fresh_names (stem : String) : Names [stem] do return [← fresh stem] :=
  fun _ => ⟨rfl, rfl⟩

theorem bind_names (stem expr : String) :
    Names (if Text.isSimple expr then [] else [stem]) do
      let result ← bind stem expr
      return if Text.isSimple expr then [] else [result] := by
  unfold bind
  cases Text.isSimple expr with
  | true => exact Names.nothing
  | false => exact fun _ => ⟨rfl, rfl⟩

end Emit

/-- An operation that asks for no name leaves the counter as it is. -/
theorem Aside.temps_perform (action : Aside) (context : Context) :
    (action.perform.run context).2.temps = context.temps := by
  cases action with
  | resolve consumer port fallback =>
      obtain ⟨accesses, diagnostics, hfinal⟩ :=
        Emit.resolve_frame consumer port fallback context
      change ((Emit.resolve consumer port fallback).run context).2.temps = context.temps
      rw [hfinal]
  | input node name fallback =>
      obtain ⟨accesses, standIns, diagnostics, hfinal⟩ :=
        Emit.input_frame node name fallback context
      change ((Emit.input node name fallback).run context).2.temps = context.temps
      rw [hfinal]
  | _ => rfl

mutual

/-- An operation gives out a name for each of its stems. -/
theorem Operation.perform_names : ∀ operation : Operation,
    Emit.Names operation.stems operation.perform
  | .temp stem => Emit.fresh_names stem
  | .bind stem expr => Emit.bind_names stem expr
  | .block header body => (performAll_names body).block header
  | .aside action => fun context => ⟨rfl, action.temps_perform context⟩

/-- Operations give out a name for each of their stems, in their order. -/
theorem performAll_names : ∀ operations : List Operation,
    Emit.Names (stemsOfAll operations) (performAll operations)
  | [] => .nothing
  | operation :: operations => operation.perform_names.append (performAll_names operations)

end

/-- Temporary names are unique. Whatever is done with a context, each call for a temporary name gets
its stem with the next number, and all these names are different. The counter goes up with each call
and nothing else, from zero in a new context, so the number is how many calls there have been. As
long as it fits in a word of 32 bits, and no longer, a counter that is such a word gives the same
names. -/
theorem temporaries_unique (context : Context) (counter : UInt32)
    (hcounter : context.temps = counter.toNat) (operations : List Operation) :
    let stems := stemsOfAll operations
    let names := ((performAll operations).run context).1
    let final := ((performAll operations).run context).2
    names.Nodup ∧
      names = stems.mapIdx (fun index stem =>
        stem ++ "_" ++ Nat.repr (context.temps + index + 1)) ∧
      final.temps = context.temps + stems.length ∧
      (wordNames? counter stems = some names ↔ context.temps + stems.length < UInt32.size) := by
  intro stems names final
  obtain ⟨hnames, htemps⟩ : names = numberedFrom context.temps stems ∧
      final.temps = context.temps + stems.length := performAll_names operations context
  refine ⟨?_, hnames, htemps, ?_⟩
  · rw [hnames]
    exact numberedFrom_nodup context.temps stems
  · rw [wordNames?_eq, ← hcounter]
    split
    · next hfits => exact iff_of_true (congrArg some hnames.symm) hfits
    · next hlarge => exact iff_of_false nofun hlarge

/-- Calls with stems that look like the names of other calls, and what may stand in between. -/
def lookalikeCalls : List Operation :=
  [.temp "tmp",
    .block "if (ready)"
      [.temp "tmp_1", .aside (.say "tmp_1.run();"), .bind "tmp_1_2" "find(tmp_1)"],
    .aside .takeLines, .bind "tmp" "creep.room", .aside (.absorb { temps := 9 }), .temp "tmp"]

theorem lookalikeCalls_apart :
    ({} : Context).temps = (0 : UInt32).toNat ∧
      ((performAll lookalikeCalls).run {}).1 = ["tmp_1", "tmp_1_2", "tmp_1_2_3", "tmp_4"] ∧
      ((performAll lookalikeCalls).run {}).1.Nodup ∧
      wordNames? 0 (stemsOfAll lookalikeCalls) = some ((performAll lookalikeCalls).run {}).1 := by
  obtain ⟨hdistinct, hnames, -, hwords⟩ := temporaries_unique {} 0 rfl lookalikeCalls
  exact ⟨rfl, hnames.trans (by decide), hdistinct, hwords.2 (by decide)⟩

end TickScript.Emission
