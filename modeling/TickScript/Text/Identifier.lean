/-!
# Identifiers

The script language writes a name bare when it is an identifier. An expression made of identifier
characters and dots can be repeated or prefixed without parentheses; `atom` adds them elsewhere.
-/

namespace TickScript.Text

/-- A letter, an underscore or a dollar sign. -/
def isNameStart (c : Char) : Bool :=
  c.isAlpha || c == '_' || c == '$'

/-- A letter, a digit, an underscore or a dollar sign. -/
def isNamePart (c : Char) : Bool :=
  c.isAlphanum || c == '_' || c == '$'

/-- The text can be written as a bare identifier. -/
def isIdentifier (text : String) : Bool :=
  match text.toList with
  | [] => false
  | c :: rest => isNameStart c && rest.all isNamePart

/-- The expression is a name, a number or a plain member chain, so repeating it is cheap. -/
def isSimple (expr : String) : Bool :=
  !expr.toList.isEmpty && expr.toList.all fun c => isNamePart c || c == '.'

/-- Put an expression in parentheses unless it is simple. -/
def atom (expr : String) : String :=
  if isSimple expr then expr else "(" ++ expr ++ ")"

/-- Replace every character that is not an ASCII letter or digit by an underscore. -/
def sanitize (name : String) : String :=
  String.ofList (name.toList.map fun c => if c.isAlphanum then c else '_')

/-- The name of the function that a task compiles to. -/
def taskIdentifier (name : String) : String :=
  "task_" ++ sanitize name

end TickScript.Text
