import TickScript.Number.Binary64

/-!
# Decimal texts

`Binary64.ofText?` reads a decimal as the number nearest to it. Digits may stand on either side of
the point, and the names of the special numbers are taken in any case.
-/

namespace TickScript.Binary64

/-- The sign of a decimal text, true for a minus, and what follows it. -/
def splitSign : List Char → Bool × List Char
  | '-' :: rest => (true, rest)
  | '+' :: rest => (false, rest)
  | chars => (false, chars)

/-- The number that digits spell. -/
def ofDigits (digits : List Char) : Nat :=
  digits.foldl (fun number c => number * 10 + (c.toNat - 48)) 0

/-- The exponent at the end of a decimal text, which is zero when nothing is left. -/
def exponentOf? : List Char → Option Int
  | [] => some 0
  | mark :: rest =>
    let (negative, digits) := splitSign rest
    if (mark = 'e' ∨ mark = 'E') ∧ !digits.isEmpty ∧ digits.all Char.isDigit then
      some (if negative then -(ofDigits digits : Int) else ofDigits digits)
    else none

/-- Read a decimal without its sign. -/
def ofUnsigned? (negative : Bool) (chars : List Char) : Option Binary64 := do
  let whole := chars.takeWhile Char.isDigit
  let rest := chars.dropWhile Char.isDigit
  let (fraction, rest) :=
    match rest with
    | '.' :: rest => (rest.takeWhile Char.isDigit, rest.dropWhile Char.isDigit)
    | rest => ([], rest)
  if (whole ++ fraction).isEmpty then none
  else
    let exponent ← exponentOf? rest
    return ofDecimal negative (ofDigits (whole ++ fraction)) (exponent - fraction.length)

/-- Read a decimal, an infinity or the name of the undefined number. -/
def ofText? (text : String) : Option Binary64 :=
  let (negative, chars) := splitSign text.toList
  let word := chars.map Char.toLower
  if word = "nan".toList then some .nan
  else if word = "inf".toList ∨ word = "infinity".toList then some (.infinite negative)
  else ofUnsigned? negative chars

end TickScript.Binary64
