import TickScript.Keyed
import TickScript.Number.Binary64

/-!
# Data values

The values of a JSON text. An integer that fits in 64 bits keeps its exact value and every other
number is rounded to the binary format. Objects list their members; an object that was read has its
keys in increasing order, and `sorted` brings a written one into that form.
-/

namespace TickScript.Json

/-- A number: an integer of at most 64 bits, or one of the binary format. -/
inductive Number where
  | integer (value : Int)
  | float (value : Binary64)
  deriving DecidableEq

/-- The number rounded to the binary format. -/
def Number.toBinary64 : Number → Binary64
  | .integer value => .ofInt value
  | .float value => value

/-- A value of a data file. -/
inductive Value where
  | null
  | bool (value : Bool)
  | number (value : Number)
  | text (value : String)
  | array (items : List Value)
  | object (members : List (String × Value))

instance : Inhabited Value := ⟨.null⟩

namespace Value

/-- The object with the given members in key order; of several members for a key the last stays. -/
def ofMembers (members : List (String × Value)) : Value :=
  .object (members.foldl (fun kept member => insertEntry member.1 member.2 kept) [])

mutual

/-- Bring every object into key order, the last member of a key staying. -/
def sorted : Value → Value
  | .array items => .array (sortedItems items)
  | .object members => ofMembers (sortedMembers members)
  | .null => .null
  | .bool value => .bool value
  | .number value => .number value
  | .text value => .text value

/-- Sort each item of an array. -/
def sortedItems : List Value → List Value
  | [] => []
  | item :: items => sorted item :: sortedItems items

/-- Sort the value of each member. -/
def sortedMembers : List (String × Value) → List (String × Value)
  | [] => []
  | (key, value) :: members => (key, sorted value) :: sortedMembers members

end

/-- The member of an object under a key. -/
def get? (key : String) : Value → Option Value
  | .object members => members.lookup key
  | _ => none

/-- A number of the binary format; one that a data file cannot hold becomes null. -/
def ofBinary64 (number : Binary64) : Value :=
  if number.isFinite then .number (.float number) else .null

/-- A natural number. -/
def ofNat (n : Nat) : Value := .number (.integer n)

end Value

end TickScript.Json
