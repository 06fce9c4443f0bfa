/-!
# Numbers of the 64-bit binary format

A finite number is a sign and the rank of its magnitude among all finite magnitudes in increasing
order. Magnitudes are whole multiples of `2 ^ (-1074)`, so every question about them is one about
natural numbers. `ofRatio` rounds a quotient to the nearest number and a tie to the even rank.
-/

namespace TickScript

/-- How many finite magnitudes there are. -/
abbrev Binary64.finiteCount : Nat := 2047 * Nat.pow 2 52

/-- A number of the 64-bit binary format; all not-a-number patterns are one. -/
inductive Binary64 where
  | nan
  | infinite (negative : Bool)
  | finite (negative : Bool) (rank : Fin Binary64.finiteCount)
  deriving DecidableEq

namespace Binary64

/-- The magnitude of a rank, in units of `2 ^ (-1074)`. -/
def units (rank : Nat) : Nat :=
  let binade := rank / Nat.pow 2 52 - 1
  (rank - binade * Nat.pow 2 52) * Nat.pow 2 binade

/-- The number of units in one. -/
def unitsInOne : Nat := Nat.pow 2 1074

/-- A quotient rounded to the nearest whole number, a tie to the even one. -/
def roundDiv (num den : Nat) : Nat :=
  let quotient := num / den
  let rest := 2 * (num % den)
  if den < rest || (rest == den && quotient % 2 == 1) then quotient + 1 else quotient

/-- The rank nearest to a quotient of units, with no upper limit. -/
def nearestRank (num den : Nat) : Nat :=
  let binade := (num / den).log2 + 1 - 53
  binade * Nat.pow 2 52 + roundDiv num (den * Nat.pow 2 binade)

/-- The number of a rank; ranks beyond the largest finite one are infinite. -/
def ofRank (negative : Bool) (rank : Nat) : Binary64 :=
  if h : rank < finiteCount then .finite negative ⟨rank, h⟩ else .infinite negative

/-- The number nearest to a quotient. -/
def ofRatio (negative : Bool) (num den : Nat) : Binary64 :=
  ofRank negative (nearestRank (num * unitsInOne) den)

/-- The number nearest to an integer. -/
def ofInt (n : Int) : Binary64 :=
  ofRatio (n < 0) n.natAbs 1

/-- The positive zero. -/
def zero : Binary64 := .finite false ⟨0, by decide⟩

/-- The number with the other sign. -/
def neg : Binary64 → Binary64
  | .nan => .nan
  | .infinite negative => .infinite (!negative)
  | .finite negative rank => .finite (!negative) rank

/-- The rounded product of two finite numbers; anything else gives no number. -/
def mul : Binary64 → Binary64 → Binary64
  | .finite n a, .finite m b =>
    ofRank (n != m) (nearestRank (units a * units b) unitsInOne)
  | _, _ => .nan

/-- The rounded quotient of two finite numbers; anything else gives no number. -/
def div : Binary64 → Binary64 → Binary64
  | .finite n a, .finite m b =>
    ofRank (n != m) (nearestRank (units a * unitsInOne) (units b))
  | _, _ => .nan

/-- The number nearest to `digits * 10 ^ exponent`. Beyond the range of the format the power is not
computed: the result is zero or infinite whatever the digits. -/
def ofDecimal (negative : Bool) (digits : Nat) (exponent : Int) : Binary64 :=
  let size : Int := digits.log2
  if digits = 0 then .finite negative ⟨0, by decide⟩
  else if 1100 < exponent then .infinite negative
  else if exponent + size < -1100 then .finite negative ⟨0, by decide⟩
  else if 0 ≤ exponent then ofRatio negative (digits * Nat.pow 10 exponent.toNat) 1
  else ofRatio negative digits (Nat.pow 10 (-exponent).toNat)

/-- The power of ten as it is rounded to the format. -/
def powerOfTen (exponent : Nat) : Binary64 :=
  ofDecimal false 1 exponent

/-- The number is zero, of either sign. -/
def isZero : Binary64 → Bool
  | .finite _ rank => rank.val == 0
  | _ => false

/-- The number is neither infinite nor undefined. -/
def isFinite : Binary64 → Bool
  | .finite _ _ => true
  | _ => false

/-- Numeric equality: both zeros are equal and an undefined number differs from itself. -/
def equal : Binary64 → Binary64 → Bool
  | .finite n a, .finite m b => a == b && (n == m || a.val == 0)
  | .infinite n, .infinite m => n == m
  | _, _ => false

/-- Numeric equality is transitive. -/
theorem equal_trans {a b c : Binary64} (hab : a.equal b = true) (hbc : b.equal c = true) :
    a.equal c = true := by
  cases a <;> cases b <;> cases c <;> simp only [equal, Bool.false_eq_true] at hab hbc ⊢
  · simp_all
  · simp only [Bool.and_eq_true, Bool.or_eq_true, beq_iff_eq] at hab hbc ⊢
    obtain ⟨rfl, hab⟩ := hab
    obtain ⟨rfl, hbc⟩ := hbc
    refine ⟨rfl, ?_⟩
    rcases hab with rfl | hzero
    · exact hbc
    · exact .inr hzero

/-- The integer that the number is, if it is one. -/
def toInt? : Binary64 → Option Int
  | .finite negative rank =>
    if units rank % unitsInOne = 0 then
      let whole : Int := (units rank / unitsInOne : Nat)
      some (if negative then -whole else whole)
    else none
  | _ => none

end Binary64

end TickScript
