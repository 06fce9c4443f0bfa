/-!
# Places in a text

A place is a line and a column. Columns count bytes, so a place can lie inside a character.
-/

namespace TickScript.Text

/-- A place in a text: its line, counted from one, and the bytes before it in that line. -/
structure Place where
  line : Nat := 1
  column : Nat := 0
  deriving DecidableEq

namespace Place

/-- The place behind so many bytes of a character. A line feed ends its line. -/
def advance (place : Place) (c : Char) (bytes : Nat) : Place :=
  if c = '\n' then ⟨place.line + 1, 0⟩ else ⟨place.line, place.column + bytes⟩

/-- The place at the end of a text. -/
def ending (chars : List Char) : Place :=
  chars.foldl (fun place c => place.advance c c.utf8Size) {}

/-- The place in a text before the given rest of it. -/
def before (text rest : List Char) : Place := ending (text.take (text.length - rest.length))

/-- The place in a text behind the first byte of the given rest of it, if there is one. -/
def within (text rest : List Char) : Place :=
  match rest with
  | [] => before text []
  | c :: _ => (before text rest).advance c 1

end Place

end TickScript.Text
