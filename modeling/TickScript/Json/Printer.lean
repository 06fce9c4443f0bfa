import TickScript.Json.Value
import TickScript.Number.Shortest
import TickScript.Text.Quoted

/-!
# Printed data

`compact` writes a value without blanks. `pretty` gives every item and member a line of its own,
two spaces deeper than its container; empty containers stay on one line.
-/

namespace TickScript.Json

/-- The text of a number. -/
def Number.render : Number → String
  | .integer value => (if value < 0 then "-" else "") ++ Nat.repr value.natAbs
  | .float value => value.dataText?.getD "null"

namespace Value

mutual

/-- The value on one line and without blanks. -/
def compact : Value → String
  | .null => "null"
  | .bool value => if value then "true" else "false"
  | .number value => value.render
  | .text value => Text.quote value
  | .array items => "[" ++ ",".intercalate (compactItems items) ++ "]"
  | .object members => "\x7b" ++ ",".intercalate (compactMembers members) ++ "\x7d"

/-- The texts of the items of an array. -/
def compactItems : List Value → List String
  | [] => []
  | item :: items => compact item :: compactItems items

/-- The texts of the members of an object. -/
def compactMembers : List (String × Value) → List String
  | [] => []
  | (key, value) :: members => (Text.quote key ++ ":" ++ compact value) :: compactMembers members

end

/-- Spaces before a line at a nesting depth. -/
def margin (depth : Nat) : String :=
  String.ofList (List.replicate (2 * depth) ' ')

/-- Put the texts of a container's contents on lines of their own. -/
def enclose (opening closing : String) (depth : Nat) (contents : List String) : String :=
  if contents.isEmpty then opening ++ closing
  else
    opening ++ "\n" ++ ",\n".intercalate (contents.map (margin (depth + 1) ++ ·)) ++ "\n" ++
      margin depth ++ closing

mutual

/-- The value with one item or member per line, at a nesting depth. -/
def prettyAt (depth : Nat) : Value → String
  | .null => "null"
  | .bool value => if value then "true" else "false"
  | .number value => value.render
  | .text value => Text.quote value
  | .array items => enclose "[" "]" depth (prettyItems (depth + 1) items)
  | .object members => enclose "\x7b" "\x7d" depth (prettyMembers (depth + 1) members)

/-- The texts of the items of an array, at the depth of the items. -/
def prettyItems (depth : Nat) : List Value → List String
  | [] => []
  | item :: items => prettyAt depth item :: prettyItems depth items

/-- The texts of the members of an object, at the depth of the members. -/
def prettyMembers (depth : Nat) : List (String × Value) → List String
  | [] => []
  | (key, value) :: members =>
    (Text.quote key ++ ": " ++ prettyAt depth value) :: prettyMembers depth members

end

/-- The value with one item or member per line. -/
def pretty (value : Value) : String := prettyAt 0 value

end Value

end TickScript.Json
