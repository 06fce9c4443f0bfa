import TickScript.Text.Blank
import TickScript.Text.Quoted

/-!
# Dotted paths

A path is a text of segments with dots between them. Segments are trimmed and empty ones dropped.
`memberPath` writes the access to a path below a base expression.
-/

namespace TickScript.Text

/-- Cut a character list at every mark. -/
def splitAtMarks (mark : Char) : List Char → List (List Char)
  | [] => [[]]
  | c :: rest =>
    if c = mark then [] :: splitAtMarks mark rest
    else
      match splitAtMarks mark rest with
      | [] => [[c]]
      | piece :: pieces => (c :: piece) :: pieces

/-- The trimmed segments of a path that are not empty. -/
def splitPath (path : String) : List String :=
  ((splitAtMarks '.' path.toList).map trimChars).filterMap fun segment =>
    if segment.isEmpty then none else some (String.ofList segment)

/-- The access to one segment: a member name, or a string constant in brackets. -/
def memberAccess (segment : String) : String :=
  if isIdentifier segment then "." ++ segment else "[" ++ quote segment ++ "]"

/-- The access to every segment of a path below a base expression. -/
def memberPath (base path : String) : String :=
  (splitPath path).foldl (fun access segment => access ++ memberAccess segment) base

/-- A list display of rendered expressions. -/
def listing (items : List String) : String :=
  "[" ++ ", ".intercalate items ++ "]"

end TickScript.Text
