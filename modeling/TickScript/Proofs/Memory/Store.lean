import Mathlib.Data.List.Infix
import Mathlib.Logic.Function.Basic

/-!
# Stores of nested objects

What scripts keep in their memory are objects inside of objects. A location is a list of keys below
the root. `reach` is what stands there, and undefined if the way to it is missing. `put?` puts a value
there, which needs a way of objects. Preparing the beginnings of a location one after the other makes
such a way and changes nothing else (`Made`).
-/

namespace TickScript.Store

/-- A value of the script language: missing, an object with members under keys, or something else,
such as a number, a text or a list. -/
inductive Value (σ : Type) where
  | undefined
  | null
  | object (members : String → Option (Value σ))
  | other (value : σ)

/-- What the script language does with values that are something else. -/
structure Others (σ : Type) where
  /-- The member under a key, which is undefined if there is none. -/
  member : σ → String → Value σ
  /-- The members that are copied when the value is merged into an object. -/
  parts : σ → String → Option (Value σ)
  /-- The key that the value is used as. -/
  key : σ → String

namespace Value

variable {σ : Type}

/-- Whether a value is undefined or null. -/
def isMissing : Value σ → Bool
  | .undefined | .null => true
  | .object _ | .other _ => false

/-- Whether a value is an object. -/
def isObject : Value σ → Bool
  | .object _ => true
  | .undefined | .null | .other _ => false

/-- The object without members. -/
def empty : Value σ := .object fun _ => none

variable (others : Others σ)

/-- The member of a value under a key. A missing value must not be asked for one. -/
def member? : Value σ → String → Option (Value σ)
  | .undefined, _ | .null, _ => none
  | .object members, key => some ((members key).getD .undefined)
  | .other value, key => some (others.member value key)

/-- The member of a value under a key, which is undefined if the value is missing. -/
def peek (value : Value σ) (key : String) : Value σ := (value.member? others key).getD .undefined

/-- What stands at a location. -/
def reach (value : Value σ) (keys : List String) : Value σ := keys.foldl (peek others) value

/-- What stands at a location, where nothing on the way may be missing. -/
def follow? (value : Value σ) (keys : List String) : Option (Value σ) :=
  keys.foldlM (member? others) value

/-- The store with a new value at a location. Only objects can be given members. -/
def put? (new : Value σ) : List String → Value σ → Option (Value σ)
  | [], _ => some new
  | key :: keys, .object members => do
    let inner ← put? new keys ((members key).getD .undefined)
    return .object (Function.update members key (some inner))
  | _ :: _, _ => none

/-- The store with an object at a location where nothing stood. -/
def prepare? (keys : List String) (root : Value σ) : Option (Value σ) := do
  let found ← root.follow? others keys
  if found.isMissing then put? empty keys root else some root

/-- The members of a value that are copied into an object. -/
def parts : Value σ → String → Option (Value σ)
  | .undefined | .null => fun _ => none
  | .object members => members
  | .other value => others.parts value

/-- A value merged into what stood in its place. Only an object keeps its members. -/
def mergedInto (old value : Value σ) : Value σ :=
  match old with
  | .object members => .object fun key => (value.parts others key).or (members key)
  | _ => value

/-- The key that a value is used as. -/
def key : Value σ → String
  | .undefined => "undefined"
  | .null => "null"
  | .object _ => "[object Object]"
  | .other value => others.key value

variable {others} {value root middle final new : Value σ} {keys other : List String} {key : String}

/-! ## Reading -/

theorem isMissing_of_isObject (h : value.isObject = true) : value.isMissing = false := by
  cases value <;> first | rfl | cases h

theorem reach_cons (value : Value σ) (key : String) (keys : List String) :
    value.reach others (key :: keys) = (value.peek others key).reach others keys := rfl

theorem reach_append (value : Value σ) (keys more : List String) :
    value.reach others (keys ++ more) = (value.reach others keys).reach others more :=
  List.foldl_append

/-- Below a missing value everything is undefined. -/
theorem reach_of_isMissing (h : value.isMissing = true) (hkeys : keys ≠ []) :
    value.reach others keys = .undefined := by
  have hpeek {value : Value σ} (h : value.isMissing = true) (key : String) :
      value.peek others key = .undefined := by
    cases value <;> first | rfl | cases h
  induction keys generalizing value with
  | nil => exact (hkeys rfl).elim
  | cons key keys ih =>
      rw [reach_cons, hpeek h]
      cases keys with
      | nil => rfl
      | cons next keys => exact ih rfl (List.cons_ne_nil _ _)

theorem reach_empty (hkeys : keys ≠ []) : (empty : Value σ).reach others keys = .undefined := by
  cases keys with
  | nil => exact (hkeys rfl).elim
  | cons key keys =>
      cases keys with
      | nil => rfl
      | cons next keys => exact @reach_of_isMissing _ _ .undefined _ rfl (List.cons_ne_nil _ _)

/-- A location can be followed if nothing on the way to it is missing. -/
theorem follow?_eq_reach (h : ∀ n < keys.length, (value.reach others (keys.take n)).isMissing = false) :
    value.follow? others keys = some (value.reach others keys) := by
  induction keys generalizing value with
  | nil => rfl
  | cons key keys ih =>
      have hfirst : value.member? others key = some (value.peek others key) := by
        have hvalue := h 0 (Nat.zero_lt_succ _)
        cases value <;> first | rfl | cases hvalue
      have hrest := @ih (value.peek others key) fun n hn => h (n + 1) (Nat.succ_lt_succ hn)
      rw [follow?, List.foldlM_cons, hfirst]
      exact hrest

/-! ## Putting -/

/-- What is put below a key goes into an object. -/
theorem put?_cons_eq_some : put? new (key :: keys) value = some final ↔
    ∃ members inner, value = .object members ∧
      put? new keys ((members key).getD .undefined) = some inner ∧
      final = .object (Function.update members key (some inner)) := by
  cases value with
  | object members =>
      constructor
      · intro h
        obtain ⟨inner, hinner, hfinal⟩ := Option.bind_eq_some_iff.1 h
        exact ⟨members, inner, rfl, hinner, (Option.some.inj hfinal).symm⟩
      · rintro ⟨_, inner, heq, hinner, rfl⟩
        cases heq
        exact Option.bind_eq_some_iff.2 ⟨inner, hinner, rfl⟩
  | _ => simp [put?]

theorem peek_update_self (members : String → Option (Value σ)) (key : String) (inner : Value σ) :
    (object (Function.update members key (some inner))).peek others key = inner := by
  simp [peek, member?]

theorem peek_update_of_ne (members : String → Option (Value σ)) {key next : String}
    (h : next ≠ key) (inner : Value σ) :
    (object (Function.update members key (some inner))).peek others next =
      (object members).peek others next := by
  simp [peek, member?, h]

/-- A value can be put at a location if there is a way of objects to it. -/
theorem exists_put? (new : Value σ)
    (h : ∀ n < keys.length, (value.reach others (keys.take n)).isObject = true) :
    ∃ final, put? new keys value = some final := by
  induction keys generalizing value with
  | nil => exact ⟨new, rfl⟩
  | cons key keys ih =>
      have hvalue : value.isObject = true := h 0 (Nat.zero_lt_succ _)
      cases value with
      | object members =>
          obtain ⟨inner, hinner⟩ := @ih ((members key).getD .undefined) fun n hn =>
            h (n + 1) (Nat.succ_lt_succ hn)
          exact ⟨_, put?_cons_eq_some.2 ⟨members, inner, rfl, hinner, rfl⟩⟩
      | undefined | null | other => cases hvalue

/-- What was put at a location stands there. -/
theorem reach_put?_self (h : put? new keys value = some final) : final.reach others keys = new := by
  induction keys generalizing value final with
  | nil =>
      cases h
      rfl
  | cons key keys ih =>
      obtain ⟨members, inner, -, hinner, rfl⟩ := put?_cons_eq_some.1 h
      rw [reach_cons, peek_update_self]
      exact ih hinner

/-- There is a way of objects to what was put. -/
theorem isObject_of_put? (h : put? new keys value = some final) {n : Nat} (hn : n < keys.length) :
    (final.reach others (keys.take n)).isObject = true := by
  induction keys generalizing value final n with
  | nil => cases hn
  | cons key keys ih =>
      obtain ⟨members, inner, -, hinner, rfl⟩ := put?_cons_eq_some.1 h
      cases n with
      | zero => rfl
      | succ n =>
          rw [List.take_succ_cons, reach_cons, peek_update_self]
          exact ih hinner (Nat.lt_of_succ_lt_succ hn)

/-- Nothing changes at locations that are neither on the way to what was put nor below it. -/
theorem reach_put?_of_apart (h : put? new keys value = some final) (hbelow : ¬ keys <+: other)
    (habove : ¬ other <+: keys) : final.reach others other = value.reach others other := by
  induction keys generalizing value final other with
  | nil => exact (hbelow (List.nil_prefix)).elim
  | cons key keys ih =>
      obtain ⟨members, inner, rfl, hinner, rfl⟩ := put?_cons_eq_some.1 h
      cases other with
      | nil => exact (habove (List.nil_prefix)).elim
      | cons next other =>
          rw [reach_cons, reach_cons]
          by_cases hnext : next = key
          · subst hnext
            rw [peek_update_self]
            refine ih hinner (fun hstart => hbelow ?_) fun hstart => habove ?_
            · exact List.cons_prefix_cons.2 ⟨rfl, hstart⟩
            · exact List.cons_prefix_cons.2 ⟨rfl, hstart⟩
          · rw [peek_update_of_ne members hnext]

/-! ## Making the way -/

/-- The way to a location has been made, and nothing else has changed. -/
structure Made (others : Others σ) (keys : List String) (root final : Value σ) : Prop where
  objects : ∀ n ≤ keys.length, (final.reach others (keys.take n)).isObject = true
  unchanged : ∀ other, ¬ other <+: keys → final.reach others other = root.reach others other

theorem Made.refl (h : root.isObject = true) : Made others [] root root := by
  refine ⟨fun n _ => ?_, fun _ _ => rfl⟩
  rwa [List.take_nil]

/-- The way is made longer by one key. -/
theorem Made.prepare? (h : Made others keys root middle)
    (hnext : (root.reach others (keys ++ [key])).isObject = true ∨
      (root.reach others (keys ++ [key])).isMissing = true) :
    ∃ final, middle.prepare? others (keys ++ [key]) = some final ∧
      Made others (keys ++ [key]) root final := by
  have hlength : (keys ++ [key]).length = keys.length + 1 := List.length_append
  have hway : ∀ n < (keys ++ [key]).length,
      (middle.reach others ((keys ++ [key]).take n)).isObject = true := by
    intro n hn
    rw [List.take_append_of_le_length (by omega)]
    exact h.objects n (by omega)
  have hlonger {other : List String} (hother : ¬ other <+: keys ++ [key]) : ¬ other <+: keys :=
    fun hstart => hother (hstart.trans (List.prefix_append _ _))
  have hfound : middle.reach others (keys ++ [key]) = root.reach others (keys ++ [key]) := by
    refine h.unchanged _ fun hstart => ?_
    have := hstart.length_le
    omega
  have hfollow : middle.follow? others (keys ++ [key]) =
      some (root.reach others (keys ++ [key])) := by
    rw [follow?_eq_reach fun n hn => isMissing_of_isObject (hway n hn), hfound]
  rcases hnext with hobject | hmissing
  · refine ⟨middle, ?_, fun n hn => ?_, fun other hother => h.unchanged other (hlonger hother)⟩
    · simp [Value.prepare?, hfollow, isMissing_of_isObject hobject]
    · rcases Nat.lt_or_eq_of_le hn with hlt | rfl
      · exact hway n hlt
      · rwa [List.take_length, hfound]
  · obtain ⟨final, hfinal⟩ := exists_put? empty hway
    refine ⟨final, ?_, fun n hn => ?_, fun other hother => ?_⟩
    · simp [Value.prepare?, hfollow, hmissing, hfinal]
    · rcases Nat.lt_or_eq_of_le hn with hlt | rfl
      · exact isObject_of_put? hfinal hlt
      · rw [List.take_length, reach_put?_self hfinal]
        rfl
    · by_cases hbelow : keys ++ [key] <+: other
      · -- Below the new object there is nothing, as there was nothing before.
        obtain ⟨more, rfl⟩ := hbelow
        have hmore : more ≠ [] := by
          rintro rfl
          exact hother (by simp)
        rw [reach_append, reach_put?_self hfinal, reach_empty hmore, reach_append,
          reach_of_isMissing hmissing hmore]
      · rw [reach_put?_of_apart hfinal hbelow hother]
        exact h.unchanged other (hlonger hother)

end Value

end TickScript.Store
