import Mathlib.Data.List.Forall2
import TickScript.Emission.Memory
import TickScript.Proofs.Memory.Store

/-!
# Statements on stores

The statements of memory nodes as data: what their texts are, and what they do to a store and to the
constants of a function. A run of statements fails where the script would ask a missing value for a
member or give members to something that is no object. `run?_guards` says that the guards of a write
make the way to its location, and `run?_stores` what the write does then.

Two things are taken for granted in a run. The base text of a store is read as one expression, to which
every access applies. That is so for `Memory`, for the memory of a room and for an actor whose text is
simple. The accesses to the memory of an actor `x || y` begin with `x || y.memory`, of which only the
last part is the base; the module `TickScript.Proofs.Emission.Receivers` says for which nodes this
happens. And an expression that is given stands for the same value at each of its places, as one without
effects does that reads nothing the statements write.
-/

namespace TickScript.Store

open TickScript.Text

/-! ## Texts -/

/-- An expression that is given as it is, or a constant. -/
inductive Operand where
  | given (text : String)
  | held (name : String)

/-- The expression of an operand. -/
def Operand.text : Operand → String
  | .given text => text
  | .held name => name

/-- A key of a location: a string constant, or the name of something. -/
inductive Key where
  | constant (text : String)
  | nameOf (owner : Operand)

/-- The expression of a key. -/
def Key.text : Key → String
  | .constant text => quote text
  | .nameOf owner =>
    let owner := owner.text
    s!"{owner}.name"

/-- The access to a location below a base expression. -/
def direct (base : String) (keys : List Key) : String :=
  (keys.map Key.text).foldl (fun access key => s!"{access}[{key}]") base

/-- The access that stops at a missing part. -/
def optional (base : String) (keys : List Key) : String :=
  (keys.map Key.text).foldl (fun access key => s!"{access}?.[{key}]") base

/-- One statement of a memory node. -/
inductive Statement where
  /-- Hold an operand in a constant. -/
  | hold (name : String) (operand : Operand)
  /-- Put an empty object at a location unless something is there. -/
  | prepare (keys : List Key)
  /-- Hold what is at a location in a constant. -/
  | fetch (name : String) (keys : List Key)
  /-- Put a value at a location. -/
  | assign (keys : List Key) (value : Operand)
  /-- Put a value at a location, merged into what was there before. -/
  | merge (keys : List Key) (old value : Operand)
  /-- Hold what is at a location in a constant, or a default if nothing is there. -/
  | recall (name : String) (keys : List Key) (default : Option Operand)

/-- The line of a statement, where the store has a base expression. -/
def Statement.text (base : String) : Statement → String
  | .hold name operand =>
    let operand := operand.text
    s!"const {name} = {operand};"
  | .prepare keys =>
    let place := direct base keys
    s!"if ({place} == null) {place} = \x7b\x7d;"
  | .fetch name keys =>
    let place := direct base keys
    s!"const {name} = {place};"
  | .assign keys value =>
    let place := direct base keys
    let value := value.text
    s!"{place} = {value};"
  | .merge keys old value =>
    let place := direct base keys
    let old := old.text
    let value := value.text
    s!"{place} = {old} !== null && typeof {old} === \"object\" && " ++
      s!"!Array.isArray({old}) ? Object.assign(\x7b\x7d, {old}, {value}) : {value};"
  | .recall name keys default =>
    let access := optional base keys
    let read :=
      match default with
      | none => access
      | some default =>
        let default := default.text
        s!"{access} ?? {default}"
    s!"const {name} = {read};"

/-! ## Runs -/

/-- The store and the constants of a function. -/
structure Machine (σ : Type) where
  root : Value σ
  constants : String → Option (Value σ)

variable {σ : Type}

/-- Hold a value in a constant. -/
def Machine.hold (machine : Machine σ) (name : String) (value : Value σ) : Machine σ :=
  { machine with constants := Function.update machine.constants name (some value) }

variable (others : Others σ) (given : String → Value σ)

/-- What an operand stands for. -/
def Operand.value? (constants : String → Option (Value σ)) : Operand → Option (Value σ)
  | .given text => some (given text)
  | .held name => constants name

/-- What a key stands for. -/
def Key.value? (constants : String → Option (Value σ)) : Key → Option String
  | .constant text => some text
  | .nameOf owner => do
    let owner ← owner.value? given constants
    let name ← owner.member? others "name"
    return name.key others

/-- What the keys of a location stand for. -/
def Machine.keys? (machine : Machine σ) (keys : List Key) : Option (List String) :=
  keys.mapM (Key.value? others given machine.constants)

/-- What is at a location, where the rest of the keys does not matter once something is missing. -/
def Machine.recall? (machine : Machine σ) : List Key → Value σ → Option (Value σ)
  | [], value => some value
  | key :: keys, value =>
    if value.isMissing then some .undefined
    else do
      let text ← key.value? others given machine.constants
      let next ← value.member? others text
      machine.recall? keys next

/-- What a statement does. -/
def Statement.run? (machine : Machine σ) : Statement → Option (Machine σ)
  | .hold name operand => do
    let value ← operand.value? given machine.constants
    return machine.hold name value
  | .prepare keys => do
    let keys ← machine.keys? others given keys
    let root ← machine.root.prepare? others keys
    return { machine with root }
  | .fetch name keys => do
    let keys ← machine.keys? others given keys
    let value ← machine.root.follow? others keys
    return machine.hold name value
  | .assign keys value => do
    let keys ← machine.keys? others given keys
    let value ← value.value? given machine.constants
    let root ← Value.put? value keys machine.root
    return { machine with root }
  | .merge keys old value => do
    let keys ← machine.keys? others given keys
    let old ← old.value? given machine.constants
    let value ← value.value? given machine.constants
    let root ← Value.put? (old.mergedInto others value) keys machine.root
    return { machine with root }
  | .recall name keys default => do
    let found ← machine.recall? others given keys machine.root
    match default with
    | none => return machine.hold name found
    | some default =>
      let default ← default.value? given machine.constants
      return machine.hold name (if found.isMissing then default else found)

/-- What statements do one after the other. -/
def run? (machine : Machine σ) (statements : List Statement) : Option (Machine σ) :=
  statements.foldlM (Statement.run? others given) machine

variable {others given} {machine : Machine σ} {keys : List Key} {texts : List String}

theorem run?_append (statements more : List Statement) :
    run? others given machine (statements ++ more) =
      (run? others given machine statements).bind fun machine => run? others given machine more :=
  List.foldlM_append

/-! ## Operands and keys -/

/-- An operand stands for the same after another constant has been declared. -/
theorem Operand.value?_hold {operand : Operand} {name : String} (h : operand ≠ .held name)
    (value : Value σ) : operand.value? given (machine.hold name value).constants =
      operand.value? given machine.constants := by
  cases operand with
  | given text => rfl
  | held held =>
      have hname : held ≠ name := fun heq => h (congrArg Operand.held heq)
      exact Function.update_of_ne hname _ _

/-- The keys of a location stand for some texts. -/
abbrev Machine.Reads (others : Others σ) (given : String → Value σ) (machine : Machine σ)
    (keys : List Key) (texts : List String) : Prop :=
  List.Forall₂ (fun key text => key.value? others given machine.constants = some text) keys texts

theorem Machine.Reads.keys? (h : machine.Reads others given keys texts) :
    machine.keys? others given keys = some texts := by
  unfold Machine.keys?
  induction h with
  | nil => rfl
  | cons hkey _ ih => simp [hkey, ih]

theorem Machine.Reads.hold (h : machine.Reads others given keys texts) {name : String}
    (hname : ∀ key ∈ keys, key ≠ .nameOf (.held name)) (value : Value σ) :
    (machine.hold name value).Reads others given keys texts := by
  induction h with
  | nil => exact .nil
  | @cons key text keys texts hkey _ ih =>
      obtain ⟨hfirst, hrest⟩ := List.forall_mem_cons.1 hname
      refine .cons ?_ (ih hrest)
      rw [← hkey]
      cases key with
      | constant text => rfl
      | nameOf owner =>
          have howner : owner ≠ .held name := fun heq => hfirst (congrArg Key.nameOf heq)
          simp only [Key.value?, Operand.value?_hold howner]

/-- The access that stops at a missing part finds what stands at the location. -/
theorem Machine.Reads.recall? (h : machine.Reads others given keys texts) (value : Value σ) :
    machine.recall? others given keys value = some (value.reach others texts) := by
  induction h generalizing value with
  | nil => rfl
  | @cons key text keys texts hkey _ ih =>
      unfold Machine.recall?
      split
      · next hmissing => rw [Value.reach_of_isMissing hmissing (List.cons_ne_nil _ _)]
      · next hpresent =>
        have hmember : value.member? others text = some (value.peek others text) := by
          cases value <;> first | rfl | exact (hpresent rfl).elim
        rw [hkey, Option.bind_eq_bind, Option.bind_some, hmember, Option.bind_eq_bind,
          Option.bind_some, ih]
        rfl

/-! ## Writing -/

/-- The guards of all proper beginnings of a location, the shortest first. -/
def guards (keys : List Key) : List Statement :=
  ((List.range keys.length).drop 1).map fun length => .prepare (keys.take length)

/-- The statements that store a value at a location to which there is a way. -/
def stores (merges : Bool) (keys : List Key) (value : Operand) (old : String) : List Statement :=
  if merges then [.fetch old keys, .merge keys (.held old) value] else [.assign keys value]

/-- Every value on the way to a location is an object or missing, and the first one is an object. -/
structure Passable (others : Others σ) (root : Value σ) (texts : List String) : Prop where
  base : root.isObject = true
  way : ∀ n < texts.length, (root.reach others (texts.take n)).isObject = true ∨
    (root.reach others (texts.take n)).isMissing = true

/-- Guards up to a length make the way to the beginning of that length. -/
theorem run?_prepare (h : machine.Reads others given keys texts)
    (hroot : Passable others machine.root texts) {n : Nat} (hn : n < texts.length) :
    ∃ root, run? others given machine
        (((List.range (n + 1)).drop 1).map fun length => .prepare (keys.take length)) =
          some { machine with root } ∧
      Value.Made others (texts.take n) machine.root root := by
  induction n with
  | zero => exact ⟨machine.root, rfl, .refl hroot.base⟩
  | succ n ih =>
      obtain ⟨middle, hmiddle, hmade⟩ := ih (by omega)
      have htake : texts.take (n + 1) = texts.take n ++ [texts[n]] := by
        rw [List.take_succ_eq_append_getElem]
      have hnext := hroot.way (n + 1) hn
      rw [htake] at hnext
      obtain ⟨root, hprepared, hlonger⟩ := hmade.prepare? hnext
      rw [← htake] at hprepared hlonger
      refine ⟨root, ?_, hlonger⟩
      have hreads : Machine.keys? others given { machine with root := middle } (keys.take (n + 1)) =
          some (texts.take (n + 1)) :=
        Machine.Reads.keys? (List.forall₂_take (n + 1) h)
      rw [List.range_succ, List.drop_append_of_le_length (by simp), List.map_append, run?_append,
        hmiddle, Option.bind_some]
      simp [run?, Statement.run?, hreads, hprepared]

/-- The guards of a write make the way to its location. -/
theorem run?_guards (h : machine.Reads others given keys texts)
    (hroot : Passable others machine.root texts) (htexts : texts ≠ []) :
    ∃ root, run? others given machine (guards keys) = some { machine with root } ∧
      Value.Made others texts.dropLast machine.root root := by
  have hlength : 0 < texts.length := List.length_pos_iff.2 htexts
  obtain ⟨root, hrun, hmade⟩ := run?_prepare h hroot (Nat.sub_one_lt_of_lt hlength)
  rw [Nat.sub_add_cancel hlength] at hrun
  refine ⟨root, ?_, ?_⟩
  · rw [guards, h.length_eq]
    exact hrun
  · rw [List.dropLast_eq_take]
    exact hmade

/-- After a way has been made, a value is stored at the end of it, and nothing changes elsewhere. -/
theorem run?_stores {root : Value σ} (h : machine.Reads others given keys texts)
    (hmade : Value.Made others texts.dropLast root machine.root) (htexts : texts ≠ [])
    {value : Operand} {stored : Value σ} (hvalue : value.value? given machine.constants = some stored)
    {old : String} (hold : value ≠ .held old) (hkeys : ∀ key ∈ keys, key ≠ .nameOf (.held old))
    (merges : Bool) :
    ∃ final, run? others given machine (stores merges keys value old) = some final ∧
      final.root.reach others texts =
        (if merges then (root.reach others texts).mergedInto others stored else stored) ∧
      ∀ other, ¬ other <+: texts → ¬ texts <+: other →
        final.root.reach others other = root.reach others other := by
  have hlength : 0 < texts.length := List.length_pos_iff.2 htexts
  have hway : ∀ n < texts.length, (machine.root.reach others (texts.take n)).isObject = true := by
    intro n hn
    have hobject := hmade.objects n (by rw [List.length_dropLast]; omega)
    rwa [List.dropLast_eq_take, List.take_take, Nat.min_eq_left (by omega)] at hobject
  have hshorter {other : List String} (hother : ¬ other <+: texts) : ¬ other <+: texts.dropLast :=
    fun hstart => hother (hstart.trans (List.dropLast_prefix texts))
  have hput (new : Value σ) : ∃ final, Value.put? new texts machine.root = some final ∧
      final.reach others texts = new ∧
      ∀ other, ¬ other <+: texts → ¬ texts <+: other →
        final.reach others other = root.reach others other := by
    obtain ⟨final, hfinal⟩ := Value.exists_put? new hway
    refine ⟨final, hfinal, Value.reach_put?_self hfinal, fun other habove hbelow => ?_⟩
    rw [Value.reach_put?_of_apart hfinal hbelow habove]
    exact hmade.unchanged other (hshorter habove)
  cases merges with
  | false =>
      obtain ⟨final, hfinal, hself, hothers⟩ := hput stored
      refine ⟨{ machine with root := final }, ?_, hself, hothers⟩
      simp [run?, stores, Statement.run?, h.keys?, hvalue, hfinal]
  | true =>
      -- What was there before is still there, since only the way to it has been made.
      have hfound : machine.root.follow? others texts = some (root.reach others texts) := by
        rw [Value.follow?_eq_reach fun n hn => Value.isMissing_of_isObject (hway n hn)]
        refine congrArg some (hmade.unchanged texts fun hstart => ?_)
        have := hstart.length_le
        rw [List.length_dropLast] at this
        omega
      obtain ⟨final, hfinal, hself, hothers⟩ :=
        hput ((root.reach others texts).mergedInto others stored)
      let fetched := machine.hold old (root.reach others texts)
      have hreads : fetched.keys? others given keys = some texts := (h.hold hkeys _).keys?
      have hstored : value.value? given fetched.constants = some stored := by
        rw [Operand.value?_hold hold, hvalue]
      have hold : Operand.value? given fetched.constants (.held old) =
          some (root.reach others texts) :=
        Function.update_self _ _ _
      have hroot :
          Value.put? ((root.reach others texts).mergedInto others stored) texts fetched.root =
            some final := hfinal
      refine ⟨{ fetched with root := final }, ?_, hself, hothers⟩
      have hfetch : Statement.run? others given machine (.fetch old keys) = some fetched := by
        simp [Statement.run?, h.keys?, hfound, fetched]
      have hmerge : Statement.run? others given fetched (.merge keys (.held old) value) =
          some { fetched with root := final } := by
        simp [Statement.run?, hreads, hold, hstored, hroot]
      simp [run?, stores, hfetch, hmerge]

end TickScript.Store
