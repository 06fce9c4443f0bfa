import TickScript.Number.Binary64

/-!
# The shortest decimal of a number

`shortest` finds the fewest digits that read back as a given magnitude: the coarsest decimal grid
with a point in the rounding interval, and on it the point nearest to the number. How the digits are
laid out is a `Layout`; a script and a data file use different ones.
-/

namespace TickScript

/-- Which of two equally near decimals is taken. -/
inductive Tie where
  | even
  | up
  deriving DecidableEq

/-- A decimal `digits * 10 ^ exponent`. -/
structure Decimal where
  digits : Nat
  exponent : Int
  deriving DecidableEq

namespace Binary64

/-- The point of the grid of multiples of `10 ^ exponent` that is nearest to the magnitude of a
rank, if one reads back as that rank. -/
def gridPoint? (tie : Tie) (rank : Nat) (exponent : Int) : Option Nat :=
  let scale := Nat.pow 10 (-exponent).toNat
  let step := Nat.pow 10 exponent.toNat * unitsInOne * 2
  let value := 2 * units rank * scale
  let low := (units (rank - 1) + units rank) * scale
  let high := (units rank + units (rank + 1)) * scale
  let inside (point : Nat) : Bool :=
    if rank % 2 = 0 then low ≤ point && point ≤ high else low < point && point < high
  let below := value / step
  let rest := 2 * (value % step)
  let upper := step < rest || (rest == step && (tie == .up || below % 2 == 1))
  match inside (below * step), inside ((below + 1) * step) with
  | true, true => some (if upper then below + 1 else below)
  | true, false => some below
  | false, true => some (below + 1)
  | false, false => none

/-- Try the grids from coarse to fine. -/
def searchGrids (tie : Tie) (rank : Nat) : Nat → Int → Decimal
  | 0, exponent => ⟨0, exponent⟩
  | budget + 1, exponent =>
    match gridPoint? tie rank exponent with
    | some digits => ⟨digits, exponent⟩
    | none => searchGrids tie rank budget (exponent - 1)

/-- The fewest digits that read back as the magnitude of a positive rank. The first grid is coarser
than the number, and seventeen digits always suffice. -/
def shortest (tie : Tie) (rank : Nat) : Decimal :=
  let size : Int := (units rank).log2
  searchGrids tie rank 24 ((size - 1074) * 30103 / 100000 + 3)

end Binary64

namespace Decimal

/-- The digits in positional form: zeros are added on either side as needed, and the integer part
is never empty. The result is the integer part and the fraction. -/
def positional (number : Decimal) : String × String :=
  let text := (Nat.repr number.digits).toList
  if 0 ≤ number.exponent then
    (String.ofList (text ++ List.replicate number.exponent.toNat '0'), "")
  else
    let places := (-number.exponent).toNat
    let padded := List.replicate (places + 1 - text.length) '0' ++ text
    let cut := padded.length - places
    (String.ofList (padded.take cut), String.ofList (padded.drop cut))

/-- The exponent of the first digit. -/
def leadingExponent (number : Decimal) : Int :=
  number.exponent + ((Nat.repr number.digits).length : Int) - 1

/-- One digit before the point, an exponent with its sign after the mark. -/
def scientific (number : Decimal) : String :=
  let exponent := number.leadingExponent
  let mark := (if exponent < 0 then "e-" else "e+") ++ Nat.repr exponent.natAbs
  match (Nat.repr number.digits).toList with
  | [] => mark
  | [digit] => String.ofList [digit] ++ mark
  | digit :: rest => String.ofList (digit :: '.' :: rest) ++ mark

end Decimal

/-- How a finite number is written. -/
structure Layout where
  tie : Tie
  /-- The exponents of the first digit that are written positionally. -/
  positionalExponents : Option (Int × Int)
  /-- What follows an integer part without fraction. -/
  wholeSuffix : String

namespace Layout

/-- Whether a first digit of this exponent is written positionally. -/
def isPositional (layout : Layout) (exponent : Int) : Bool :=
  match layout.positionalExponents with
  | none => true
  | some (low, high) => low ≤ exponent && exponent ≤ high

/-- The text of a finite magnitude given by its rank. -/
def magnitude (layout : Layout) (rank : Nat) : String :=
  if rank = 0 then "0" ++ layout.wholeSuffix
  else
    let decimal := Binary64.shortest layout.tie rank
    if layout.isPositional decimal.leadingExponent then
      match decimal.positional with
      | (whole, "") => whole ++ layout.wholeSuffix
      | (whole, fraction) => whole ++ "." ++ fraction
    else decimal.scientific

/-- The text of a finite number. -/
def render (layout : Layout) (negative : Bool) (rank : Nat) : String :=
  (if negative then "-" else "") ++ layout.magnitude rank

/-- Data files keep a point or an exponent in every number, and a tie goes to the even digit. -/
def data : Layout := ⟨.even, some (-5, 15), ".0"⟩

/-- Scripts never use an exponent, and a tie goes up. -/
def script : Layout := ⟨.up, none, ""⟩

end Layout

namespace Binary64

/-- A finite number as the script language prints it, given the integer that it is, if it is one:
integers below `10 ^ 15` as such and without a negative zero, other numbers in positional form. -/
def finiteText (whole : Option Int) (negative : Bool) (rank : Nat) : String :=
  match whole with
  | some whole =>
    if whole.natAbs < Nat.pow 10 15 then
      (if whole < 0 then "-" else "") ++ Nat.repr whole.natAbs
    else Layout.script.render negative rank
  | none => Layout.script.render negative rank

/-- The number as the script language prints it. -/
def scriptText (number : Binary64) : String :=
  match number with
  | .nan => "NaN"
  | .infinite negative => if negative then "-Infinity" else "Infinity"
  | .finite negative rank => finiteText number.toInt? negative rank

/-- The number as a data file holds it, if it can hold it. -/
def dataText? : Binary64 → Option String
  | .finite negative rank => some (Layout.data.render negative rank)
  | _ => none

end Binary64

end TickScript
