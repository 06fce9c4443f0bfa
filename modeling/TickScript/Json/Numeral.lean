import TickScript.Json.Fault
import TickScript.Json.Value

/-!
# Number tokens

A numeral is the spelling of a number: a sign, digits, a fraction and an exponent. Its value is an
exact integer when it is written as one and fits in 64 bits. Otherwise the leading digits that fit
in 64 bits are rounded and scaled by one rounded power of ten.
-/

namespace TickScript.Json

/-- The parts of a number as they are written. -/
structure Numeral where
  negative : Bool
  whole : List Char
  fraction : List Char
  /-- The sign of the exponent, true for a minus, and its digits. -/
  exponent : Option (Bool × List Char)

/-- Where reading stopped and why. One who reads the value and one who skips it may give different
reasons. The rest begins with the character at fault, unless the text ended too early. -/
structure Stop where
  fault : Fault
  skipFault : Fault
  rest : List Char

/-- A number is beyond the format. The excess is what is left of its exponent from the digit on that
no exponent can hold; it is empty when the exponent was read as a whole. -/
structure Overflow where
  excess : List Char

namespace Numeral

/-- A missing digit: the text ends, or another character stands in its place. -/
def missingDigit : List Char → Stop
  | [] => ⟨.cutValue, .invalidNumber, []⟩
  | rest => ⟨.invalidNumber, .invalidNumber, rest⟩

/-- The sign of an exponent and what follows it. -/
def scanSign : List Char → Bool × List Char
  | '+' :: rest => (false, rest)
  | '-' :: rest => (true, rest)
  | rest => (false, rest)

/-- Read the exponent of a numeral, if one follows. -/
def scanExponent (numeral : Numeral) (chars : List Char) : Except Stop (Numeral × List Char) :=
  match chars with
  | [] => .ok (numeral, [])
  | c :: rest =>
    if c = 'e' ∨ c = 'E' then
      let (negative, rest) := scanSign rest
      match rest.takeWhile Char.isDigit with
      | [] => .error (missingDigit rest)
      | digits => .ok ({ numeral with exponent := some (negative, digits) },
          rest.dropWhile Char.isDigit)
    else .ok (numeral, chars)

/-- Read the fraction and the exponent of a numeral, if they follow. -/
def scanFraction (numeral : Numeral) (chars : List Char) : Except Stop (Numeral × List Char) :=
  match chars with
  | '.' :: rest =>
    match rest.takeWhile Char.isDigit with
    | [] => .error (missingDigit rest)
    | digits => scanExponent { numeral with fraction := digits } (rest.dropWhile Char.isDigit)
  | _ => scanExponent numeral chars

/-- Read the digits of a numeral after its sign. A leading zero stands alone. -/
def scanWhole (negative : Bool) (chars : List Char) : Except Stop (Numeral × List Char) :=
  match chars.takeWhile Char.isDigit with
  | [] => .error (missingDigit chars)
  | '0' :: _ :: _ => .error ⟨.invalidNumber, .invalidNumber, chars.drop 1⟩
  | digits => scanFraction ⟨negative, digits, [], none⟩ (chars.dropWhile Char.isDigit)

/-- Read a numeral at the front of a text. -/
def scan : List Char → Except Stop (Numeral × List Char)
  | '-' :: rest => scanWhole true rest
  | chars => scanWhole false chars

/-- The value of a decimal digit. -/
def digitValue (c : Char) : Nat := c.toNat - 48

/-- Append digits to a number while it stays below a bound, and return those that are left. -/
def absorb (bound number : Nat) : List Char → Nat × List Char
  | [] => (number, [])
  | c :: rest =>
    let next := number * 10 + digitValue c
    if next < bound then absorb bound next rest else (number, c :: rest)

/-- The number that digits spell. -/
def digitsValue (digits : List Char) : Nat :=
  digits.foldl (fun number c => number * 10 + digitValue c) 0

/-- Scale a number by a power of ten with one rounding. Powers beyond the range of the format are
applied in steps, so small results vanish. -/
def scale : Nat → Binary64 → Int → Except Overflow Binary64
  | 0, number, _ => .ok number
  | budget + 1, number, exponent =>
    if exponent.natAbs ≤ 308 then
      let power := Binary64.powerOfTen exponent.natAbs
      if 0 ≤ exponent then
        let product := number.mul power
        if product.isFinite then .ok product else .error ⟨[]⟩
      else .ok (number.div power)
    else if number.isZero then .ok number
    else if 0 ≤ exponent then .error ⟨[]⟩
    else scale budget (number.div (Binary64.powerOfTen 308)) (exponent + 308)

/-- The number of the binary format that a numeral spells. -/
def float (numeral : Numeral) : Except Overflow Binary64 := do
  let (leading, dropped) := absorb (Nat.pow 2 64) 0 numeral.whole
  let (significand, ignored) := absorb (Nat.pow 2 64) leading numeral.fraction
  let shift : Int := dropped.length - (numeral.fraction.length - ignored.length : Nat)
  let magnitude ←
    match numeral.exponent with
    | none => scale 4 (.ofInt significand) shift
    | some (negative, digits) =>
      let (exponent, excess) := absorb (Nat.pow 2 31) 0 digits
      if excess.isEmpty then
        scale 4 (.ofInt significand) (if negative then shift - exponent else shift + exponent)
      else if significand ≠ 0 ∧ negative = false then .error ⟨excess⟩
      else .ok .zero
  return if numeral.negative then magnitude.neg else magnitude

/-- The value of a numeral. A negative zero is not an integer. -/
def value (numeral : Numeral) : Except Overflow Number :=
  let whole := digitsValue numeral.whole
  let isInteger := numeral.fraction.isEmpty && numeral.exponent.isNone
  if isInteger && !numeral.negative && whole < Nat.pow 2 64 then .ok (.integer whole)
  else if isInteger && numeral.negative && 0 < whole && whole ≤ Nat.pow 2 63 then
    .ok (.integer (-whole))
  else .float <$> numeral.float

end Numeral

end TickScript.Json
