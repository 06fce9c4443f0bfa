import TickScript.Json.Numeral
import TickScript.Literal
import TickScript.Settings.Failure
import TickScript.Text.Place

/-!
# Reading and writing settings

A codec reads one type from data values and writes it back. Reading may happen from a value itself,
or from contents that were set aside until a tag after them was known; the two differ in how strict
they are about keys and lengths.
-/

namespace TickScript.Settings

open TickScript.Json (Value)

/-- Where a value comes from: it is read directly, or was set aside first. -/
inductive Origin where
  | direct
  | buffered
  deriving DecidableEq

/-- How one type is read from data values and written back. -/
structure Codec (α : Type) where
  read : Origin → Value → Except Failure α
  write : α → Value
  /-- What stands for a member that is absent, if it may be. -/
  absent : Option α := none

namespace Codec

variable {α β : Type}

/-- A failure to find what was expected. -/
def mismatch (value : Value) (expected : Expected) : Except Failure α :=
  .error (.wrongType (.ofValue value) expected)

/-- Texts. -/
def text : Codec String where
  read := fun _ value =>
    match value with
    | .text content => .ok content
    | _ => mismatch value .text
  write := .text

/-- Truth values. -/
def boolean : Codec Bool where
  read := fun _ value =>
    match value with
    | .bool content => .ok content
    | _ => mismatch value .boolean
  write := .bool

/-- An integer of a data value between two bounds. -/
def readInteger (low high : Int) (expected : Expected) (value : Value) : Except Failure Int :=
  match value with
  | .number (.integer content) =>
    if low ≤ content ∧ content ≤ high then .ok content
    else .error (.wrongValue (.ofValue value) expected)
  | _ => mismatch value expected

/-- Integers of 64 bits with a sign. -/
def signed64 : Codec Int where
  read := fun _ value => readInteger (-9223372036854775808) 9223372036854775807 .signed64 value
  write := fun content => .number (.integer content)

/-- Integers of 32 bits without a sign. -/
def unsigned32 : Codec Nat where
  read := fun _ value => Int.toNat <$> readInteger 0 4294967295 .unsigned32 value
  write := .ofNat

/-- Numbers of the binary format; an integer is rounded to it. -/
def number : Codec Binary64 where
  read := fun _ value =>
    match value with
    | .number content => .ok content.toBinary64
    | _ => mismatch value .number
  write := .ofBinary64

/-- Literals, which any value is. -/
def literal : Codec Literal where
  read := fun _ value => .ok (.ofValue value)
  write := Literal.toValue

/-- Free-form values. -/
def value : Codec Value where
  read := fun _ value => .ok value
  write := id

/-- Values that may be null or absent. -/
def optional (codec : Codec α) : Codec (Option α) where
  read := fun origin value =>
    match value with
    | .null => .ok none
    | _ => some <$> codec.read origin value
  write := fun content =>
    match content with
    | none => .null
    | some content => codec.write content
  absent := some none

/-- Sequences. -/
def list (codec : Codec α) : Codec (List α) where
  read := fun origin value =>
    match value with
    | .array items => items.mapM (codec.read origin)
    | _ => mismatch value .sequence
  write := fun items => .array (items.map codec.write)

/-- How a key of a map is read and written. -/
structure Key (κ : Type) where
  read : Origin → String → Except Failure κ
  write : κ → String

/-- Keys that are texts. -/
def Key.text : Key String := ⟨fun _ key => .ok key, id⟩

/-- A failure at a place in a key. -/
def failAt {γ : Type} (place : Text.Place) (failure : Failure) : Except Failure γ :=
  .error (.located failure place.line place.column)

/-- Read a key as a number token that ends with the key. -/
def readNumberKey (key : List Char) : Except Failure Nat :=
  match key.head? with
  | none => .error .keyNotNumber
  | some c =>
    if c.isDigit || c = '-' then
      match Json.Numeral.scan key with
      | .error stop => failAt (.within key stop.rest) (.malformed stop.fault)
      | .ok (numeral, rest) =>
        match numeral.value with
        | .error ⟨[]⟩ => failAt (.before key rest) (.malformed .numberTooLarge)
        | .error ⟨excess⟩ => failAt (.within key (excess ++ rest)) (.malformed .numberTooLarge)
        | .ok content =>
          match unsigned32.read .direct (.number content) with
          | .error failure => failAt (.before key rest) failure
          | .ok content => if rest.isEmpty then .ok content else .error .keyNotNumber
    else .error .keyNotNumber

/-- Keys that are integers of 32 bits without a sign. Contents that were set aside have lost the
chance to be read as numbers. -/
def Key.unsigned32 : Key Nat where
  read := fun origin key =>
    match origin with
    | .direct => readNumberKey key.toList
    | .buffered => .error (.wrongType (.text key) .unsigned32)
  write := Nat.repr

/-- Maps in the order of their keys; of two spellings of a key the later wins. -/
def keyed {κ : Type} [Ord κ] [Std.TransOrd κ] [Std.LawfulEqOrd κ] (key : Key κ) (codec : Codec α) :
    Codec (Keyed κ α) where
  read := fun origin value =>
    match value with
    | .object members =>
      members.foldlM (fun table (name, content) => do
        let name ← key.read origin name
        let content ← codec.read origin content
        return table.insert name content) Keyed.empty
    | _ => mismatch value .map
  write := fun table => .object (table.entries.map fun (name, content) =>
    (key.write name, codec.write content))

end Codec

/-- A closed choice of names. -/
structure Choice (α : Type) where
  all : List α
  name : α → String
  aliases : α → List String := fun _ => []
  /-- What any other name stands for, if it is allowed. -/
  other : Option α := none

namespace Choice

variable {α : Type}

/-- All names of one alternative, in order. -/
def spellings (choice : Choice α) (alternative : α) : List String :=
  (choice.name alternative :: choice.aliases alternative).mergeSort (fun a b => decide (a ≤ b))

/-- The alternative of a name. -/
def ofName (choice : Choice α) (name : String) : Except Failure α :=
  match choice.all.find? fun alternative => (choice.spellings alternative).contains name with
  | some alternative => .ok alternative
  | none =>
    match choice.other with
    | some alternative => .ok alternative
    | none => .error (.unknownChoice name (choice.all.flatMap choice.spellings))

/-- What may stand beside a name that is the key of an object. -/
def checkUnit (origin : Origin) (value : Value) : Except Failure Unit :=
  match origin, value with
  | _, .null => .ok ()
  | .buffered, .object [] => .ok ()
  | _, _ => Codec.mismatch value .unit

/-- A choice is a name, or an object with the name as its only key. -/
def codec (choice : Choice α) : Codec α where
  read := fun origin value =>
    match value with
    | .text name => choice.ofName name
    | .object [(name, content)] => do
      let alternative ← choice.ofName name
      checkUnit origin content
      return alternative
    | .object _ => .error (.wrongValue .map .singleKey)
    | _ => Codec.mismatch value .choice
  write := fun alternative => .text (choice.name alternative)

/-- The choice as the key of a map. -/
def key (choice : Choice α) : Codec.Key α := ⟨fun _ name => choice.ofName name, choice.name⟩

end Choice

end TickScript.Settings
