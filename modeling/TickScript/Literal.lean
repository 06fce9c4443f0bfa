import TickScript.Json.Value
import TickScript.Number.Shortest
import TickScript.Text.Quoted

/-!
# Literals

A literal is a constant of a node input or a setting. Unlike a data value it can be undefined, which
is what an absent setting is. A text literal is written as it stands, so it doubles as an
expression; `quoteTexts` turns every text inside a literal into a string constant, so that it reads
as data.
-/

namespace TickScript

/-- A constant of a node input or a setting. Map entries keep the order in which they were given. -/
inductive Literal where
  | undefined
  | null
  | bool (value : Bool)
  | number (value : Binary64)
  | text (value : String)
  | list (items : List Literal)
  | map (entries : List (String × Literal))

instance : Inhabited Literal := ⟨.undefined⟩

namespace Literal

/-- Whether nothing was given. -/
def isUndefined : Literal → Bool
  | .undefined => true
  | _ => false

/-- The text of a text literal. -/
def asText? : Literal → Option String
  | .text value => some value
  | _ => none

/-- The first entry of a map under a key. -/
def get? (key : String) : Literal → Option Literal
  | .map entries => entries.lookup key
  | _ => none

mutual

/-- The literal of a data value. -/
def ofValue : Json.Value → Literal
  | .null => .null
  | .bool value => .bool value
  | .number value => .number value.toBinary64
  | .text value => .text value
  | .array items => .list (ofItems items)
  | .object members => .map (ofMembers members)

/-- The literals of the items of an array. -/
def ofItems : List Json.Value → List Literal
  | [] => []
  | item :: items => ofValue item :: ofItems items

/-- The entries of the members of an object. -/
def ofMembers : List (String × Json.Value) → List (String × Literal)
  | [] => []
  | (key, value) :: members => (key, ofValue value) :: ofMembers members

end

mutual

/-- The data value of a literal. What data cannot hold becomes null, and map entries are sorted, the
last of each key staying. -/
def toValue : Literal → Json.Value
  | .undefined | .null => .null
  | .bool value => .bool value
  | .number value => .ofBinary64 value
  | .text value => .text value
  | .list items => .array (toItems items)
  | .map entries => .ofMembers (toMembers entries)

/-- The data values of list items. -/
def toItems : List Literal → List Json.Value
  | [] => []
  | item :: items => toValue item :: toItems items

/-- The data values of map entries, in the order of the entries. -/
def toMembers : List (String × Literal) → List (String × Json.Value)
  | [] => []
  | (key, value) :: entries => (key, toValue value) :: toMembers entries

end

/-- Put the rendered entries of a map between braces. -/
def renderBraces (entries : List String) : String :=
  if entries.isEmpty then "\x7b\x7d" else "\x7b " ++ ", ".intercalate entries ++ " \x7d"

mutual

/-- The literal as an expression of the script language. -/
def render : Literal → String
  | .undefined => "undefined"
  | .null => "null"
  | .bool value => if value then "true" else "false"
  | .number value => value.scriptText
  | .text value => value
  | .list items => "[" ++ ", ".intercalate (renderItems items) ++ "]"
  | .map entries => renderBraces (renderEntries entries)

/-- The expressions of list items. -/
def renderItems : List Literal → List String
  | [] => []
  | item :: items => render item :: renderItems items

/-- The expressions of map entries, each after its key. -/
def renderEntries : List (String × Literal) → List String
  | [] => []
  | (key, value) :: entries =>
    (Text.propertyKey key ++ ": " ++ render value) :: renderEntries entries

end

mutual

/-- Turn every text inside a literal into a string constant. -/
def quoteTexts : Literal → Literal
  | .text value => .text (Text.quote value)
  | .list items => .list (quoteItems items)
  | .map entries => .map (quoteEntries entries)
  | .undefined => .undefined
  | .null => .null
  | .bool value => .bool value
  | .number value => .number value

/-- Turn every text inside list items into a string constant. -/
def quoteItems : List Literal → List Literal
  | [] => []
  | item :: items => quoteTexts item :: quoteItems items

/-- Turn every text inside map entries into a string constant; keys stay. -/
def quoteEntries : List (String × Literal) → List (String × Literal)
  | [] => []
  | (key, value) :: entries => (key, quoteTexts value) :: quoteEntries entries

end

mutual

/-- Equality of literals, with numbers compared as numbers: both zeros are equal and an undefined
number differs from itself. -/
def same : Literal → Literal → Bool
  | .undefined, .undefined => true
  | .null, .null => true
  | .bool a, .bool b => a == b
  | .number a, .number b => a.equal b
  | .text a, .text b => a == b
  | .list as, .list bs => sameItems as bs
  | .map as, .map bs => sameEntries as bs
  | _, _ => false

/-- Equality of list items, one by one. -/
def sameItems : List Literal → List Literal → Bool
  | [], [] => true
  | a :: as, b :: bs => same a b && sameItems as bs
  | _, _ => false

/-- Equality of map entries, one by one and in order. -/
def sameEntries : List (String × Literal) → List (String × Literal) → Bool
  | [], [] => true
  | (key, a) :: as, (other, b) :: bs => key == other && same a b && sameEntries as bs
  | _, _ => false

end

instance : BEq Literal := ⟨same⟩

mutual

/-- Equality of literals is transitive. -/
theorem same_trans : ∀ {a b c : Literal}, same a b = true → same b c = true → same a c = true
  | .undefined, .undefined, _, _, hbc => hbc
  | .null, .null, _, _, hbc => hbc
  | .bool _, .bool _, .bool _, hab, hbc => by simp_all [same]
  | .number _, .number _, .number _, hab, hbc => by
      simp only [same] at hab hbc ⊢
      exact Binary64.equal_trans hab hbc
  | .text _, .text _, .text _, hab, hbc => by simp_all [same]
  | .list _, .list _, .list _, hab, hbc => by
      simp only [same] at hab hbc ⊢
      exact sameItems_trans hab hbc
  | .map _, .map _, .map _, hab, hbc => by
      simp only [same] at hab hbc ⊢
      exact sameEntries_trans hab hbc

/-- Equality of list items is transitive. -/
theorem sameItems_trans : ∀ {as bs cs : List Literal},
    sameItems as bs = true → sameItems bs cs = true → sameItems as cs = true
  | [], [], _, _, hbc => hbc
  | _ :: _, _ :: _, _ :: _, hab, hbc => by
      simp only [sameItems, Bool.and_eq_true] at hab hbc ⊢
      exact ⟨same_trans hab.1 hbc.1, sameItems_trans hab.2 hbc.2⟩

/-- Equality of map entries is transitive. -/
theorem sameEntries_trans : ∀ {as bs cs : List (String × Literal)},
    sameEntries as bs = true → sameEntries bs cs = true → sameEntries as cs = true
  | [], [], _, _, hbc => hbc
  | (_, _) :: _, (_, _) :: _, (_, _) :: _, hab, hbc => by
      simp only [sameEntries, Bool.and_eq_true, beq_iff_eq] at hab hbc ⊢
      exact ⟨⟨hab.1.1.trans hbc.1.1, same_trans hab.1.2 hbc.1.2⟩, sameEntries_trans hab.2 hbc.2⟩

end

/-- An object of settings in the script language, without the entries that are undefined. -/
def settingsObject (entries : List (String × Literal)) : String :=
  renderBraces (renderEntries (entries.filter fun entry => !entry.2.isUndefined))

end Literal

end TickScript
