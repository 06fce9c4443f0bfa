/-!
# Blank characters

A character is blank when it has the Unicode property `White_Space`. Names and path segments are
compared after `trim`, which removes blanks at both ends and nothing in between.
-/

namespace TickScript.Text

/-- The characters of the Unicode property `White_Space`. -/
def isBlank (c : Char) : Bool :=
  let code := c.toNat
  (9 ≤ code && code ≤ 13) || code == 0x20 || code == 0x85 || code == 0xA0 || code == 0x1680 ||
    (0x2000 ≤ code && code ≤ 0x200A) || code == 0x2028 || code == 0x2029 || code == 0x202F ||
    code == 0x205F || code == 0x3000

/-- Remove the blanks at both ends of a character list. -/
def trimChars (chars : List Char) : List Char :=
  ((chars.dropWhile isBlank).reverse.dropWhile isBlank).reverse

/-- Remove the blanks at both ends of a text. -/
def trim (text : String) : String :=
  String.ofList (trimChars text.toList)

/-- A text of blanks only, the empty text included. -/
def isBlankText (text : String) : Bool :=
  text.toList.all isBlank

end TickScript.Text
