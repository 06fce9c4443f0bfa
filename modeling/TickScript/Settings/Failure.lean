import TickScript.Json.Fault
import TickScript.Json.Printer
import TickScript.Text.Shown

/-!
# Failures to read settings

A failure says what was found and what was expected in its place. `Failure.message` is the only
place where a failure is put into words.
-/

namespace TickScript.Settings

/-- What was found where something else was expected. -/
inductive Found where
  | null
  | bool (value : Bool)
  | number (value : Json.Number)
  | text (value : String)
  | sequence
  | map

namespace Found

/-- The description of a value. -/
def ofValue : Json.Value → Found
  | .null => .null
  | .bool value => .bool value
  | .number value => .number value
  | .text value => .text value
  | .array _ => .sequence
  | .object _ => .map

/-- The wording of what was found. -/
def message : Found → String
  | .null => "null"
  | .bool value => "boolean `" ++ (if value then "true" else "false") ++ "`"
  | .number (.integer value) => "integer `" ++ (Json.Number.integer value).render ++ "`"
  | .number (.float value) => "floating point `" ++ (Json.Number.float value).render ++ "`"
  | .text value => "string " ++ Text.shown value
  | .sequence => "sequence"
  | .map => "map"

end Found

/-- What was expected. -/
inductive Expected where
  | text
  | boolean
  | signed64
  | unsigned32
  | number
  | sequence
  | map
  /-- One name of a choice, alone or as the only key of an object. -/
  | choice
  | singleKey
  | unit
  | record (name : String)
  | recordOf (name : String) (fields : Nat)
  | fewerItems
  | items (count : Nat)
  /-- A value whose tag and contents stand side by side. -/
  | tagged (name : String)
  /-- An object with its tag among its members. -/
  | selfTagged (name : String)
  | tag

/-- A number of elements. -/
def elementCount (count : Nat) : String :=
  Nat.repr count ++ (if count = 1 then " element" else " elements")

/-- The wording of what was expected. -/
def Expected.message : Expected → String
  | .text => "a string"
  | .boolean => "a boolean"
  | .signed64 => "i64"
  | .unsigned32 => "u32"
  | .number => "f64"
  | .sequence => "a sequence"
  | .map => "a map"
  | .choice => "string or map"
  | .singleKey => "map with a single key"
  | .unit => "unit"
  | .record name => "struct " ++ name
  | .recordOf name fields => "struct " ++ name ++ " with " ++ elementCount fields
  | .fewerItems => "fewer elements in array"
  | .items count => elementCount count ++ " in sequence"
  | .tagged name => "adjacently tagged enum " ++ name
  | .selfTagged name => "internally tagged enum " ++ name
  | .tag => "variant identifier"

/-- Why settings cannot be read. -/
inductive Failure where
  | wrongType (found : Found) (expected : Expected)
  | wrongValue (found : Found) (expected : Expected)
  | wrongLength (length : Nat) (expected : Expected)
  | missing (field : String)
  | duplicate (field : String)
  | unknownChoice (name : String) (choices : List String)
  | keyNotNumber
  /-- A text, or a key that is read like a text, is not well formed. -/
  | malformed (fault : Json.Fault)
  /-- A failure inside a key, with the line and the column where reading stopped. -/
  | located (failure : Failure) (line column : Nat)

/-- The names that a choice allows. -/
def choicesMessage : List String → String
  | [] => "there are no variants"
  | [name] => "expected `" ++ name ++ "`"
  | [first, second] => "expected `" ++ first ++ "` or `" ++ second ++ "`"
  | names => "expected one of " ++ ", ".intercalate (names.map fun name => "`" ++ name ++ "`")

/-- The wording of a failure. -/
def Failure.message : Failure → String
  | .wrongType found expected =>
    "invalid type: " ++ found.message ++ ", expected " ++ expected.message
  | .wrongValue found expected =>
    "invalid value: " ++ found.message ++ ", expected " ++ expected.message
  | .wrongLength length expected =>
    "invalid length " ++ Nat.repr length ++ ", expected " ++ expected.message
  | .missing field => "missing field `" ++ field ++ "`"
  | .duplicate field => "duplicate field `" ++ field ++ "`"
  | .unknownChoice name choices =>
    "unknown variant `" ++ name ++ "`, " ++ choicesMessage choices
  | .keyNotNumber => "invalid value: expected key to be a number in quotes"
  | .malformed fault => fault.message
  | .located failure line column =>
    failure.message ++ " at line " ++ Nat.repr line ++ " column " ++ Nat.repr column

end TickScript.Settings
